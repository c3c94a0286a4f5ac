/-
This file describes the text that is passed over between two items. Blanks and comments make up
trivia, and a comment reaches up to the newline that ends its line. The one distinction that
matters later is whether the last comment has met its newline: behind closed trivia the reading of
items starts afresh, whereas an open comment swallows whatever is put behind it. An open comment
can therefore only stand at the end of a text, and that is what is proved of the trivia that a
text starts with.
-/

import LoxFront.Proofs.Runs
import LoxFront.Trivia

namespace LoxFront

namespace Trivia

open Text (Stops)

/-- Blanks, and comments that are each followed by a newline. -/
inductive Closed : Text → Prop
  | nil : Closed []
  | blank {character : Char} {rest : Text} (space : isBlank character = true)
      (closed : Closed rest) : Closed (character :: rest)
  | comment {body rest : Text} (oneLine : '\n' ∉ body) (closed : Closed rest) :
      Closed ('/' :: '/' :: (body ++ '\n' :: rest))

/-- Closed trivia, and behind it a comment without a newline. -/
def Open (trivia : Text) : Prop :=
  ∃ front body, trivia = front ++ '/' :: '/' :: body ∧ Closed front ∧ '\n' ∉ body

/-- A text that starts neither with a blank nor with a comment. -/
def Absent (text : Text) : Prop :=
  Stops isBlank text ∧ startsComment text = false

/-! ### Reading trivia -/

theorem isBlank_iff {character : Char} :
    isBlank character = true ↔ character ∈ [' ', '\r', '\t', '\n'] := by
  simp [isBlank, or_assoc]

/-- Up to the next newline a comment takes up everything. -/
theorem leading_true_append {body : Text} (oneLine : '\n' ∉ body) (rest : Text) :
    leading true (body ++ rest) = body ++ leading true rest := by
  induction body with
  | nil => rfl
  | cons first others inductionHypothesis =>
    have notNewline : first ≠ '\n' := fun equal => oneLine (equal ▸ List.mem_cons_self)
    rw [List.cons_append, leading, bne_iff_ne.mpr notNewline,
      inductionHypothesis fun member => oneLine (List.mem_cons_of_mem _ member), List.cons_append]

theorem leading_true_of_stops {rest : Text} (ended : Stops (· ≠ '\n') rest) :
    leading true rest = leading false rest := by
  cases rest with
  | nil => rfl
  | cons first later =>
    obtain rfl : first = '\n' := by simpa using ended first rfl
    rfl

theorem leadingTrivia_blank {character : Char} (rest : Text) (space : isBlank character = true) :
    Text.leadingTrivia (character :: rest) = character :: Text.leadingTrivia rest := by
  rw [Text.leadingTrivia, leading, if_pos space]
  rfl

/-- A comment is passed over up to its newline, which is left to what follows. -/
theorem leadingTrivia_comment {body rest : Text} (oneLine : '\n' ∉ body)
    (ended : Stops (· ≠ '\n') rest) :
    Text.leadingTrivia ('/' :: '/' :: (body ++ rest)) =
      '/' :: '/' :: (body ++ Text.leadingTrivia rest) := by
  have passed : leading true (body ++ rest) = body ++ leading false rest := by
    rw [leading_true_append oneLine, leading_true_of_stops ended]
  show leading false ('/' :: '/' :: (body ++ rest)) = _
  rw [leading, if_neg (by decide), if_pos (by rfl), leading]
  exact congrArg (fun text => '/' :: '/' :: text) passed

theorem leadingTrivia_absent {text : Text} (absent : Absent text) : text.leadingTrivia = [] := by
  cases text with
  | nil => rfl
  | cons character rest =>
    rw [Text.leadingTrivia, leading, if_neg (by rw [absent.1 character rfl]; decide),
      if_neg (by rw [absent.2]; decide)]

/-- A text starts with a blank, with a whole comment, or with neither. -/
theorem text_induction {motive : Text → Prop}
    (blank : ∀ character rest, isBlank character = true → motive rest →
      motive (character :: rest))
    (comment : ∀ body rest, '\n' ∉ body → Stops (· ≠ '\n') rest → motive rest →
      motive ('/' :: '/' :: (body ++ rest)))
    (absent : ∀ text, Absent text → motive text) (text : Text) : motive text := by
  induction size : text.length using Nat.strongRecOn generalizing text with
  | ind size inductionHypothesis =>
    subst size
    cases text with
    | nil => exact absent [] ⟨Text.stops_nil _, rfl⟩
    | cons character rest =>
      by_cases space : isBlank character = true
      · exact blank character rest space (inductionHypothesis _ (by simp) rest rfl)
      · by_cases slashes : startsComment (character :: rest) = true
        · obtain ⟨later, shape⟩ := List.isPrefixOf_iff_prefix.mp slashes
          obtain ⟨body, behind, rfl, inside, ended⟩ := Text.exists_run (· ≠ '\n') later
          rw [← shape] at inductionHypothesis ⊢
          refine comment body behind (fun member => by simpa using inside _ member) ended
            (inductionHypothesis _ ?_ behind rfl)
          simp only [List.cons_append, List.nil_append, List.length_cons, List.length_append]
          omega
        · exact absent _ ⟨Text.stops_cons (by simpa using space), by simpa using slashes⟩

/-- What is passed over is the front of the text, and what follows starts an item. -/
theorem leadingTrivia_split (text : Text) :
    ∃ rest, text = text.leadingTrivia ++ rest ∧ Absent rest := by
  induction text using text_induction with
  | blank character rest space inductionHypothesis =>
    obtain ⟨later, split, absent⟩ := inductionHypothesis
    refine ⟨later, ?_, absent⟩
    rw [leadingTrivia_blank rest space, List.cons_append, ← split]
  | comment body rest oneLine ended inductionHypothesis =>
    obtain ⟨later, split, absent⟩ := inductionHypothesis
    refine ⟨later, ?_, absent⟩
    rw [leadingTrivia_comment oneLine ended, List.cons_append, List.cons_append, List.append_assoc,
      ← split]
  | absent text absent => exact ⟨text, by rw [leadingTrivia_absent absent]; rfl, absent⟩

/-! ### Closed and open trivia -/

/-- Closed trivia does not depend on what follows. -/
theorem Closed.leadingTrivia_append {trivia : Text} (closed : Closed trivia) (text : Text) :
    Text.leadingTrivia (trivia ++ text) = trivia ++ text.leadingTrivia := by
  induction closed with
  | nil => rfl
  | blank space _ inductionHypothesis =>
    rw [List.cons_append, leadingTrivia_blank _ space, inductionHypothesis, List.cons_append]
  | @comment body rest oneLine _ inductionHypothesis =>
    have newline : Text.leadingTrivia ('\n' :: (rest ++ text)) =
        '\n' :: (rest ++ text.leadingTrivia) := by
      rw [leadingTrivia_blank _ rfl, inductionHypothesis]
    show Text.leadingTrivia ('/' :: '/' :: (body ++ '\n' :: rest ++ text)) = _
    rw [List.append_assoc, List.cons_append,
      leadingTrivia_comment oneLine (Text.stops_cons rfl), newline]
    simp

theorem Closed.append {front back : Text} (closed : Closed front) (closedBack : Closed back) :
    Closed (front ++ back) := by
  induction closed with
  | nil => exact closedBack
  | blank space _ inductionHypothesis => exact .blank space inductionHypothesis
  | @comment body rest oneLine _ inductionHypothesis =>
    show Closed ('/' :: '/' :: (body ++ '\n' :: rest ++ back))
    rw [List.append_assoc]
    exact .comment oneLine inductionHypothesis

/-- A newline closes the last comment. -/
theorem closed_append_newline {trivia : Text} (trailing : Closed trivia ∨ Open trivia) :
    Closed (trivia ++ ['\n']) := by
  rcases trailing with closed | ⟨front, body, rfl, closed, oneLine⟩
  · exact closed.append (.blank rfl .nil)
  · rw [List.append_assoc]
    exact closed.append (.comment oneLine .nil)

theorem Closed.leadingTrivia_eq {trivia : Text} (closed : Closed trivia) :
    trivia.leadingTrivia = trivia := by
  have whole := closed.leadingTrivia_append []
  rwa [List.append_nil, leadingTrivia_absent ⟨Text.stops_nil _, rfl⟩, List.append_nil] at whole

/-- Inside a comment closed trivia is passed over as well: up to its first newline it belongs to
the comment, and from there on it is trivia. -/
theorem Closed.leading_true {trivia : Text} (closed : Closed trivia) :
    leading true trivia = trivia := by
  induction closed with
  | nil => rfl
  | @blank character rest _ closed inductionHypothesis =>
    rw [leading]
    cases character != '\n' with
    | true => rw [inductionHypothesis]
    | false => exact congrArg _ closed.leadingTrivia_eq
  | @comment body rest oneLine closed _ =>
    show '/' :: '/' :: leading true (body ++ '\n' :: rest) = _
    rw [leading_true_append oneLine]
    exact congrArg (fun text => '/' :: '/' :: (body ++ '\n' :: text)) closed.leadingTrivia_eq

/-- The trivia that a text starts with is closed, or it is the whole text and open. -/
theorem leadingTrivia_closed_or_open (text : Text) :
    Closed text.leadingTrivia ∨ text.leadingTrivia = text ∧ Open text := by
  induction text using text_induction with
  | blank character rest space inductionHypothesis =>
    rw [leadingTrivia_blank rest space]
    rcases inductionHypothesis with closed | ⟨whole, front, body, split, closed, oneLine⟩
    · exact Or.inl (Closed.blank space closed)
    · refine Or.inr ⟨by rw [whole], character :: front, body, ?_, Closed.blank space closed,
        oneLine⟩
      rw [split, List.cons_append]
  | comment body rest oneLine ended inductionHypothesis =>
    rw [leadingTrivia_comment oneLine ended]
    cases rest with
    | nil => exact Or.inr ⟨rfl, [], body, by simp, Closed.nil, oneLine⟩
    | cons first later =>
      obtain rfl : first = '\n' := by simpa using ended first rfl
      have newline : Text.leadingTrivia ('\n' :: later) = '\n' :: Text.leadingTrivia later :=
        leadingTrivia_blank later rfl
      rw [newline] at inductionHypothesis ⊢
      rcases inductionHypothesis with closed | ⟨whole, front, last, split, closed, oneLineLast⟩
      · cases closed with
        | blank _ closed => exact Or.inl (Closed.comment oneLine closed)
      · refine Or.inr ⟨by rw [whole], ?_⟩
        cases closed with
        | nil => cases split
        | comment => cases split
        | blank space closed =>
          obtain ⟨rfl, rfl⟩ := List.cons_eq_cons.mp split
          exact ⟨_, last, by simp, Closed.comment oneLine closed, oneLineLast⟩
  | absent text absent =>
    rw [leadingTrivia_absent absent]
    exact Or.inl Closed.nil

end Trivia

end LoxFront
