/-
This file defines what is read of a list of tokens: the tokens before the first end mark, and the
place where the input ends. Whatever stands behind the first end mark plays no part, and a list
without an end mark ends where its last token does.
-/

import LoxFront.Token

namespace LoxFront

/-- Tokens without an end mark, and the place where they end. -/
structure Sentence where
  tokens : List Token
  stop : Place

/-- What is read of a list of tokens. -/
def Sentence.ofTokens (tokens : List Token) : Sentence where
  tokens := tokens.takeWhile fun token => !token.isEnd
  stop :=
    match tokens.find? Token.isEnd, tokens.getLast? with
    | some mark, _ => mark.span.start
    | none, some last => last.span.stop
    | none, none => Place.ofText []

end LoxFront
