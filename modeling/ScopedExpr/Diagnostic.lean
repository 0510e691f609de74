import ScopedExpr.Evaluation
import ScopedExpr.PrecedenceGrammar
import ScopedExpr.TokenCursor
import ScopedExpr.Utf8Decoding

/-!
# Diagnostics

What a reader is told of a fault: its kind, its line where it has one, and its
wording. The end of the text is called `end`.
-/

namespace ScopedExpr

inductive Diagnostic where
  | lex (line : Nat) (message : String)
  | parse (line : Nat) (lexeme message : String)
  | runtime (line : Nat) (message : String)
  | internal (line : Option Nat) (message : String)
  | utf8 (message : String)
deriving DecidableEq

namespace Diagnostic

def kindName : Diagnostic → String
  | lex _ _ => "Lex"
  | parse _ _ _ => "Parse"
  | runtime _ _ => "Runtime"
  | internal _ _ => "Internal"
  | utf8 _ => "Utf8"

def line? : Diagnostic → Option Nat
  | lex line _ => some line
  | parse line _ _ => some line
  | runtime line _ => some line
  | internal line _ => line
  | utf8 _ => none

def located : Option Nat → String → String
  | some line, text => s!"[line {line}] {text}"
  | none, text => text

def render (d : Diagnostic) : String :=
  located d.line? <|
    match d with
    | lex _ message => s!"Error: {message}"
    | parse _ lexeme message => s!"Error at '{lexeme}': {message}"
    | runtime _ message => s!"Runtime error: {message}"
    | internal _ message => s!"Internal error: {message}"
    | utf8 message => message

end Diagnostic

def LexError.diagnostic (e : LexError) : Diagnostic := .lex e.line e.fault.message

def Token.mention (t : Token) : String :=
  match t.kind with
  | .endOfText => "end"
  | _ => t.lexeme

def ParseError.diagnostic (e : ParseError) : Diagnostic :=
  .parse e.token.line e.token.mention e.fault.message

def EvalError.diagnostic : EvalError → Diagnostic
  | .runtime fault line => .runtime line fault.message
  | .internal fault line => .internal line fault.message

def Utf8Fault.diagnostic (f : Utf8Fault) : Diagnostic := .utf8 f.message

end ScopedExpr
