import ScopedExpr.DynamicValue
import ScopedExpr.QuotedText

/-!
# Tokens

A token has a kind, the text it was cut from, and the line of its first character.
Kinds are punctuators, reserved words, names, literals and comments with what they
stand for, and the end of the text. Two kinds are the same when they differ at most
in what they stand for.
-/

namespace ScopedExpr

inductive Punctuator where
  | leftParen | rightParen | leftBrace | rightBrace
  | comma | dot | minus | plus | semicolon | slash | star
  | bang | bangEqual | equal | equalEqual
  | greater | greaterEqual | less | lessEqual
deriving DecidableEq

inductive Keyword where
  | andWord | notWord | structWord | classWord | elseWord | falseWord | funWord | forWord
  | ifWord | nilWord | noneWord | orWord | printWord | returnWord | superWord | thisWord
  | trueWord | varWord | whileWord
deriving DecidableEq

namespace Punctuator

def name : Punctuator → String
  | leftParen => "LEFT_PAREN"
  | rightParen => "RIGHT_PAREN"
  | leftBrace => "LEFT_BRACE"
  | rightBrace => "RIGHT_BRACE"
  | comma => "COMMA"
  | dot => "DOT"
  | minus => "MINUS"
  | plus => "PLUS"
  | semicolon => "SEMICOLON"
  | slash => "SLASH"
  | star => "STAR"
  | bang => "BANG"
  | bangEqual => "BANG_EQUAL"
  | equal => "EQUAL"
  | equalEqual => "EQUAL_EQUAL"
  | greater => "GREATER"
  | greaterEqual => "GREATER_EQUAL"
  | less => "LESS"
  | lessEqual => "LESS_EQUAL"

def all : List Punctuator :=
  [leftParen, rightParen, leftBrace, rightBrace, comma, dot, minus, plus, semicolon, slash,
    star, bang, bangEqual, equal, equalEqual, greater, greaterEqual, less, lessEqual]

end Punctuator

namespace Keyword

def spelling : Keyword → String
  | andWord => "and"
  | notWord => "not"
  | structWord => "struct"
  | classWord => "class"
  | elseWord => "else"
  | falseWord => "False"
  | funWord => "fun"
  | forWord => "for"
  | ifWord => "if"
  | nilWord => "nil"
  | noneWord => "None"
  | orWord => "or"
  | printWord => "print"
  | returnWord => "return"
  | superWord => "super"
  | thisWord => "this"
  | trueWord => "True"
  | varWord => "var"
  | whileWord => "while"

def name : Keyword → String
  | andWord => "AND"
  | notWord => "NOT"
  | structWord => "STRUCT"
  | classWord => "CLASS"
  | elseWord => "ELSE"
  | falseWord => "FALSE"
  | funWord => "FUN"
  | forWord => "FOR"
  | ifWord => "IF"
  | nilWord => "NIL"
  | noneWord => "NONE"
  | orWord => "OR"
  | printWord => "PRINT"
  | returnWord => "RETURN"
  | superWord => "SUPER"
  | thisWord => "THIS"
  | trueWord => "TRUE"
  | varWord => "VAR"
  | whileWord => "WHILE"

def all : List Keyword :=
  [andWord, notWord, structWord, classWord, elseWord, falseWord, funWord, forWord, ifWord,
    nilWord, noneWord, orWord, printWord, returnWord, superWord, thisWord, trueWord, varWord,
    whileWord]

def ofSpelling? (word : List Char) : Option Keyword :=
  all.find? fun k => k.spelling.toList == word

theorem spelling_of_ofSpelling? {word : List Char} {k : Keyword}
    (h : ofSpelling? word = some k) : k.spelling.toList = word := by
  simpa using List.find?_some h

end Keyword

/-- What a token is, with what it stands for where that is a value or a text. -/
inductive TokenKind where
  | punctuator (mark : Punctuator)
  | keyword (word : Keyword)
  | identifier
  | string (content : String)
  | integer (number : Int64)
  | float (number : Binary64)
  | comment (content : String)
  | endOfText
deriving DecidableEq

namespace TokenKind

def name : TokenKind → String
  | punctuator mark => mark.name
  | keyword word => word.name
  | identifier => "IDENTIFIER"
  | string _ => "STRING"
  | integer _ => "INTEGER"
  | float _ => "FLOAT"
  | comment _ => "COMMENT"
  | endOfText => "EOF"

def payload : TokenKind → String
  | string s => s
  | integer n => (Value.integer n).display
  | float x => (Value.float x).display
  | comment s => s
  | _ => "null"

def bare : TokenKind → TokenKind
  | string _ => string ""
  | integer _ => integer 0
  | float _ => float .nan
  | comment _ => comment ""
  | kind => kind

def same (k l : TokenKind) : Bool := k.bare == l.bare

@[simp] theorem same_self (k : TokenKind) : k.same k = true := beq_self_eq_true k.bare

end TokenKind

/-- A piece of text with its kind and the line of its first character. -/
structure Token where
  kind : TokenKind
  lexeme : String
  line : Nat
deriving DecidableEq

namespace Token

def same (a b : Token) : Bool := a.kind.same b.kind && a.lexeme == b.lexeme && a.line == b.line

def sameList : List Token → List Token → Bool
  | [], [] => true
  | a :: as, b :: bs => a.same b && sameList as bs
  | _, _ => false

def display (t : Token) : String := s!"{t.kind.name} {t.lexeme} {t.kind.payload}"

/-- The kind in a token record: its name, or a record from the name to the payload. -/
def kindRecord : TokenKind → List Char
  | kind@(.string s) => recordText [(kind.name.toList, quoted s.toList)]
  | kind@(.comment s) => recordText [(kind.name.toList, quoted s.toList)]
  | kind@(.integer n) => recordText [(kind.name.toList, intNumeral n.toInt)]
  | kind@(.float x) => recordText [(kind.name.toList, NumberStyle.record.write x)]
  | kind => quoted kind.name.toList

def toRecord (t : Token) : String :=
  String.ofList <| recordText
    [("token_type".toList, kindRecord t.kind),
      ("lexeme".toList, quoted t.lexeme.toList),
      ("line".toList, natNumeral t.line)]

@[simp] theorem same_self (t : Token) : t.same t = true := by
  simp [same]

end Token

end ScopedExpr
