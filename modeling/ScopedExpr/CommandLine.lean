import ScopedExpr.QuotedName
import ScopedExpr.TextEvaluation

/-!
# The command line

Arguments name a command and a file. The answer to them is a pure function of the
arguments and of what is found under the name of the file: the two outputs, the exit
code, and whether a log file is made.
-/

namespace ScopedExpr.CommandLine

inductive Command where
  | tokenize (records : Bool)
  | parse
  | evaluate

inductive Request where
  | run (command : Command) (file : String) (log : Bool)
  | version
  | help
  | misuse

inductive FileContent where
  | bytes (content : List UInt8)
  | cannotOpen (cause : String)
  | cannotRead (cause : String)

namespace FileContent

def missing : FileContent := cannotOpen "No such file or directory (os error 2)"

def notDirectory : FileContent := cannotOpen "Not a directory (os error 20)"

def directory : FileContent := cannotRead "Is a directory (os error 21)"

end FileContent

structure Answer where
  stdout : String := ""
  stderr : String := ""
  code : Nat := 0
  logFile : Bool := false

def command? : String → Option Command
  | "tokenize" => some (.tokenize false)
  | "parse" => some .parse
  | "evaluate" => some .evaluate
  | _ => none

def isPlain (argument : String) : Bool := argument == "-" || !argument.startsWith "-"

/-- The first of the one-letter options behind a single dash. Each of them asks for a text
and ends the run, so the letters after it are never looked at. -/
def firstShortOption? (argument : String) : Option Char :=
  match argument.toList with
  | '-' :: '-' :: _ => none
  | '-' :: letter :: _ => some letter
  | _ => none

/-- The arguments behind a command; `literal` tells that options have ended. An option is
given at most once. -/
def readOperands (command : Command) (file : Option String) (outerLog log literal : Bool) :
    List String → Request
  | [] =>
    match file with
    | some name => .run command name (outerLog || log)
    | none => .misuse
  | argument :: rest =>
    if literal || isPlain argument then
      if file.isSome || argument.isEmpty then .misuse
      else readOperands command (some argument) outerLog log literal rest
    else
      match argument, command with
      | "--", _ => readOperands command file outerLog log true rest
      | "--log", _ => if log then .misuse else readOperands command file outerLog true literal rest
      | "--json", .tokenize false => readOperands (.tokenize true) file outerLog log literal rest
      | "--help", _ => .help
      | _, _ => if firstShortOption? argument = some 'h' then .help else .misuse

def readArguments (log : Bool) : List String → Request
  | [] => .misuse
  | "--log" :: rest => if log then .misuse else readArguments true rest
  | "--version" :: _ => .version
  | "--help" :: _ => .help
  | "help" :: _ => .help
  | name :: rest =>
    match command? name, firstShortOption? name with
    | some command, _ => readOperands command none log false false rest
    | none, some 'V' => .version
    | none, some 'h' => .help
    | none, _ => .misuse

def outputLine (text : String) : String := text ++ "\n"

def fileAnswer (context cause : String) : Answer where
  stderr := s!"Error: {context}\n\nCaused by:\n    {cause}\n"
  code := 1

def diagnosticAnswer (code : Nat) (d : Diagnostic) : Answer where
  stderr := outputLine d.render
  code := code

/-- Every token of a text is put out, and every fault is reported. -/
def tokenizeAnswer (records : Bool) (text : String) : Answer :=
  let items := textItems text.toList
  let tokens := items.filterMap fun item => item.toOption
  let faults := items.filterMap fun item =>
    match item with
    | .ok _ => none
    | .error e => some (outputLine e.diagnostic.render)
  { stdout := String.join
      (tokens.map fun t => outputLine (if records then t.toRecord else t.display))
    stderr := String.join faults
    code := if faults.isEmpty then 0 else 65 }

def parseAnswer (text : String) : Answer :=
  match Expr.ofText text with
  | .error d => diagnosticAnswer 65 d
  | .ok e => { stdout := outputLine e.toBracketed }

def evaluateAnswer (text : String) : Answer :=
  match Expr.ofText text with
  | .error d => diagnosticAnswer 65 d
  | .ok e =>
    match e.value with
    | .error err => diagnosticAnswer 70 err.diagnostic
    | .ok v => { stdout := outputLine v.display }

def Command.answer : Command → String → Answer
  | .tokenize records => tokenizeAnswer records
  | .parse => parseAnswer
  | .evaluate => evaluateAnswer

def Command.answerFile (command : Command) (file : String) : FileContent → Answer
  | .cannotOpen cause => fileAnswer s!"Failed to open file {QuotedName.encode file}" cause
  | .cannotRead cause => fileAnswer s!"Failed to read file {QuotedName.encode file}" cause
  | .bytes content =>
    match Utf8.decode content with
    | .error fault => fileAnswer s!"File {QuotedName.encode file} is not valid UTF-8" fault.message
    | .ok text => command.answer text

def Request.answer (find : String → FileContent) : Request → Answer
  | .run command file log => { command.answerFile file (find file) with logFile := log }
  | .version => { stdout := outputLine "slug 0.1.0" }
  | .help => {}
  | .misuse => { code := 2 }

def answer (find : String → FileContent) (arguments : List String) : Answer :=
  (readArguments false arguments).answer find

end ScopedExpr.CommandLine
