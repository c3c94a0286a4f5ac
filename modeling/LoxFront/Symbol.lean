/-
This file lists the symbols of Lox, the tokens that are spelled with punctuation, and says which
of them stands at the front of a text.
-/

import LoxFront.Text

namespace LoxFront

/-- A token spelled with punctuation. -/
inductive Symbol
  | leftParen | rightParen | leftBrace | rightBrace
  | comma | dot | minus | plus | semicolon | slash | star
  | bang | bangEqual | equal | equalEqual
  | greater | greaterEqual | less | lessEqual
  deriving DecidableEq

namespace Symbol

/-- How a symbol is written. -/
def spelling : Symbol → Text
  | leftParen => ['(']
  | rightParen => [')']
  | leftBrace => ['{']
  | rightBrace => ['}']
  | comma => [',']
  | dot => ['.']
  | minus => ['-']
  | plus => ['+']
  | semicolon => [';']
  | slash => ['/']
  | star => ['*']
  | bang => ['!']
  | bangEqual => ['!', '=']
  | equal => ['=']
  | equalEqual => ['=', '=']
  | greater => ['>']
  | greaterEqual => ['>', '=']
  | less => ['<']
  | lessEqual => ['<', '=']

/-- What a symbol is called in a token listing. -/
def name : Symbol → Text
  | leftParen => "LeftParen".toList
  | rightParen => "RightParen".toList
  | leftBrace => "LeftBrace".toList
  | rightBrace => "RightBrace".toList
  | comma => "Comma".toList
  | dot => "Dot".toList
  | minus => "Minus".toList
  | plus => "Plus".toList
  | semicolon => "Semicolon".toList
  | slash => "Slash".toList
  | star => "Star".toList
  | bang => "Bang".toList
  | bangEqual => "BangEqual".toList
  | equal => "Equal".toList
  | equalEqual => "EqualEqual".toList
  | greater => "Greater".toList
  | greaterEqual => "GreaterEqual".toList
  | less => "Less".toList
  | lessEqual => "LessEqual".toList

/-- All symbols, a longer one before every shorter one that it starts with. -/
def all : List Symbol :=
  [bangEqual, equalEqual, greaterEqual, lessEqual, bang, equal, greater, less,
    leftParen, rightParen, leftBrace, rightBrace, comma, dot, minus, plus, semicolon, slash, star]

/-- The longest symbol at the front of a text. -/
def front? (text : Text) : Option Symbol :=
  all.find? fun symbol => symbol.spelling.isPrefixOf text

theorem mem_all (symbol : Symbol) : symbol ∈ all := by
  cases symbol <;> decide

end Symbol

end LoxFront
