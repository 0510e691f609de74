import ScopedExpr.TextEvaluation

/-!
# Programs in two passes

A program is a list of steps over the tokens of one text: blocks are opened and
closed, names get values, and expressions are taken from the text one after the other.
The first pass reads and resolves all expressions; the second carries the steps out in
a session with all distances. A step that fails does not stop either pass.
-/

namespace ScopedExpr

inductive Step where
  | openBlock
  | closeBlock
  | define (name : String) (value : Value)
  /-- Evaluate the next expression of the text. -/
  | expression

inductive Action where
  | openBlock
  | closeBlock
  | define (name : String) (value : Value)
  | evaluate (read : Except ParseError Expr)

inductive Outcome where
  | done
  | value (v : Value)
  | failed (d : Diagnostic)

/-- The first pass: what is to be done, and the resolution behind it. -/
def prepare : List Step → TokenReader → Resolution → List Action × Resolution
  | [], _, r => ([], r)
  | .openBlock :: steps, reader, r =>
    let (actions, r') := prepare steps reader r.openBlock
    (.openBlock :: actions, r')
  | .closeBlock :: steps, reader, r =>
    let (actions, r') := prepare steps reader r.closeBlock
    (.closeBlock :: actions, r')
  | .define name value :: steps, reader, r =>
    let (actions, r') := prepare steps reader (r.declare name)
    (.define name value :: actions, r')
  | .expression :: steps, reader, r =>
    let (read, reader') := reader.attempt Reading.expression
    let resolved := match read with
      | .ok e => r.resolve e
      | .error _ => r
    let (actions, r') := prepare steps reader' resolved
    (.evaluate read :: actions, r')

namespace Session

def act (access : Access) (s : Session) : Action → Outcome × Session
  | .openBlock => (.done, s.openBlock)
  | .closeBlock =>
    match closeBlock.run s with
    | .ok _ s' => (.done, s')
    | .error e s' => (.failed e.diagnostic, s')
  | .define name value => (.done, s.define name value)
  | .evaluate (.error e) => (.failed e.diagnostic, s)
  | .evaluate (.ok e) =>
    match s.evaluate access e with
    | (.ok v, s') => (.value v, s')
    | (.error err, s') => (.failed err.diagnostic, s')

/-- The second pass: the outcome of every action and the session behind it. -/
def perform (access : Access) : Session → List Action → List (Outcome × Session)
  | _, [] => []
  | s, action :: actions =>
    let step := s.act access action
    step :: perform access step.2 actions

end Session

def runProgram (access : Access) (tokens : List Token) (steps : List Step) :
    Locals × List (Outcome × Session) :=
  let (actions, resolution) := prepare steps (.ofTokens tokens) {}
  (resolution.locals, (Session.start resolution.locals).perform access actions)

end ScopedExpr
