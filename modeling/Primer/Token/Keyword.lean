/-!
# Reserved words

The words that are not identifiers. `Keyword.ofText?` is the table read backwards, so a word is
reserved exactly when it is the text of a keyword.
-/

namespace Primer

inductive Keyword where
  | andWord | orWord | notWord
  | ifWord | elifWord | elseWord | thenWord | endWord
  | forWord | toWord | stepWord | whileWord
  | funWord | returnWord | continueWord | breakWord
  | repeatWord | timesWord | isWord
  deriving DecidableEq, Repr

namespace Keyword

def all : List Keyword :=
  [andWord, orWord, notWord, ifWord, elifWord, elseWord, thenWord, endWord, forWord, toWord,
   stepWord, whileWord, funWord, returnWord, continueWord, breakWord, repeatWord, timesWord, isWord]

def text : Keyword → String
  | andWord => "and"
  | orWord => "or"
  | notWord => "not"
  | ifWord => "if"
  | elifWord => "elif"
  | elseWord => "else"
  | thenWord => "then"
  | endWord => "end"
  | forWord => "for"
  | toWord => "to"
  | stepWord => "step"
  | whileWord => "while"
  | funWord => "fun"
  | returnWord => "return"
  | continueWord => "continue"
  | breakWord => "break"
  | repeatWord => "repeat"
  | timesWord => "times"
  | isWord => "is"

/-- The name of a keyword in token listings and tree outlines. -/
def label : Keyword → String
  | andWord => "And"
  | orWord => "Or"
  | notWord => "Not"
  | ifWord => "If"
  | elifWord => "Elif"
  | elseWord => "Else"
  | thenWord => "Then"
  | endWord => "End"
  | forWord => "For"
  | toWord => "To"
  | stepWord => "Step"
  | whileWord => "While"
  | funWord => "Fun"
  | returnWord => "Return"
  | continueWord => "Continue"
  | breakWord => "Break"
  | repeatWord => "Repeat"
  | timesWord => "Times"
  | isWord => "Is"

/-- The keyword a word spells, if it is reserved. -/
def ofText? (word : String) : Option Keyword :=
  all.find? fun keyword => keyword.text == word

end Keyword

end Primer
