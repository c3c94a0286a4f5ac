/-
This file lists the keywords of Lox, the words that are not identifiers.
-/

import LoxFront.Text

namespace LoxFront

/-- A reserved word. -/
inductive Keyword
  | andWord | classWord | elseWord | falseWord | forWord | funWord | ifWord | nilWord
  | orWord | printWord | returnWord | superWord | thisWord | trueWord | varWord | whileWord
  deriving DecidableEq

namespace Keyword

/-- How a keyword is written. -/
def spelling : Keyword → Text
  | andWord => "and".toList
  | classWord => "class".toList
  | elseWord => "else".toList
  | falseWord => "false".toList
  | forWord => "for".toList
  | funWord => "fun".toList
  | ifWord => "if".toList
  | nilWord => "nil".toList
  | orWord => "or".toList
  | printWord => "print".toList
  | returnWord => "return".toList
  | superWord => "super".toList
  | thisWord => "this".toList
  | trueWord => "true".toList
  | varWord => "var".toList
  | whileWord => "while".toList

/-- What a keyword is called in a token listing. -/
def name : Keyword → Text
  | andWord => "And".toList
  | classWord => "Class".toList
  | elseWord => "Else".toList
  | falseWord => "False".toList
  | forWord => "For".toList
  | funWord => "Fun".toList
  | ifWord => "If".toList
  | nilWord => "Nil".toList
  | orWord => "Or".toList
  | printWord => "Print".toList
  | returnWord => "Return".toList
  | superWord => "Super".toList
  | thisWord => "This".toList
  | trueWord => "True".toList
  | varWord => "Var".toList
  | whileWord => "While".toList

/-- All keywords. -/
def all : List Keyword :=
  [andWord, classWord, elseWord, falseWord, forWord, funWord, ifWord, nilWord,
    orWord, printWord, returnWord, superWord, thisWord, trueWord, varWord, whileWord]

/-- The keyword that a word is, if it is one. Case matters. -/
def ofText? (word : Text) : Option Keyword :=
  all.find? fun keyword => keyword.spelling == word

theorem mem_all (keyword : Keyword) : keyword ∈ all := by
  cases keyword <;> decide

theorem ofText?_spelling (keyword : Keyword) : ofText? keyword.spelling = some keyword := by
  cases keyword <;> decide

theorem eq_spelling_of_ofText? {word : Text} {keyword : Keyword}
    (found : ofText? word = some keyword) : word = keyword.spelling := by
  have spelled := List.find?_some found
  exact (eq_of_beq spelled).symm

end Keyword

end LoxFront
