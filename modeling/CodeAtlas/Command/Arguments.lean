import CodeAtlas.Path.Basic
import CodeAtlas.Retrieval.Context

/-!
# `CodeAtlas.Command.Arguments`: the arguments of the command line

The first argument names a command; options and positional arguments follow in any order. A
short option may stand together with others and with its value, and behind two dashes every
argument is positional.
-/

set_option autoImplicit false

namespace CodeAtlas

/-! ### Commands -/

/-- A question to the index of a project. -/
structure Question where
  text : String
  path : Option Path
  topK : Option Nat
  issue : Option IssueContext
deriving DecidableEq, Repr

/-- What the program is asked to do. -/
inductive Command where
  /-- Sets a project up, and indexes it if that is wanted. -/
  | init (path : Option Path) (index : Bool) (includes excludes : List String)
  | index (path : Option Path) (embeds quiet verbose : Bool)
  | status (path : Option Path)
  | query (question : Question) (json : Bool)
  | context (question : Question) (format : ContextFormat)
deriving DecidableEq, Repr

/-- What stands in the way of a command. -/
inductive ArgumentStop where
  | misuse
  | help
  | version
deriving DecidableEq, Repr

namespace Arguments

/-! ### Values -/

/-- What a value has to be. -/
inductive ValueKind where
  | text
  | path
  | count
  | format
deriving DecidableEq, Repr

/-- A path, which is not empty. -/
def path? (text : String) : Option Path :=
  if text = "" then none else some ⟨text⟩

/-- A number of 64 bits, which may have a plus before it. -/
def count? (text : String) : Option Nat :=
  let digits := match text.toList with
    | '+' :: digits => digits
    | digits => digits
  let n := Json.digitsValue digits
  if digits ≠ [] && digits.all Char.isDigit && n ≤ 0xffffffffffffffff then some n else none

/-- The renderings that can be asked for. -/
def format? (text : String) : Option ContextFormat :=
  if text = "markdown" then some .markdown
  else if text = "json" then some .json
  else none

/-- Whether a text is a value of a kind. -/
def ValueKind.admits (kind : ValueKind) (text : String) : Bool :=
  match kind with
  | .text => true
  | .path => (path? text).isSome
  | .count => (count? text).isSome
  | .format => (format? text).isSome

/-! ### Forms of commands -/

/-- How often an option may be given, and the value that it has. -/
inductive OptionKind where
  | flag
  | single (value : ValueKind)
  | repeated
deriving DecidableEq, Repr

/-- An option. -/
structure OptionForm where
  long : String
  short : Option Char
  kind : OptionKind
deriving DecidableEq, Repr

/-- What a command takes: options, and at most one positional argument. -/
structure CommandForm where
  options : List OptionForm
  positional : ValueKind
deriving DecidableEq, Repr

/-- The option that asks for help. -/
def helpOption : OptionForm := ⟨"help", some 'h', .flag⟩

/-- What arguments say. -/
structure Reading where
  flags : List OptionForm
  /-- Options with their values, in order. -/
  values : List (OptionForm × String)
  positional : Option String
deriving DecidableEq, Repr

namespace Reading

/-- The reading of no arguments. -/
def empty : Reading := ⟨[], [], none⟩

/-- One more flag; a flag is given at most once. -/
def addFlag (r : Reading) (o : OptionForm) : Except ArgumentStop Reading :=
  if o = helpOption then .error .help
  else if r.flags.contains o then .error .misuse
  else .ok { r with flags := o :: r.flags }

/-- One more value; only some options may have several. -/
def addValue (r : Reading) (o : OptionForm) (value : String) : Except ArgumentStop Reading :=
  let accepted := match o.kind with
    | .flag => false
    | .single kind => kind.admits value && !r.values.any fun v => v.1 = o
    | .repeated => true
  if accepted then .ok { r with values := r.values ++ [(o, value)] } else .error .misuse

/-- The positional argument. -/
def addPositional (kind : ValueKind) (r : Reading) (value : String) :
    Except ArgumentStop Reading :=
  if r.positional.isNone && kind.admits value then .ok { r with positional := some value }
  else .error .misuse

/-- Whether a flag is given. -/
def flag (r : Reading) (long : String) : Bool :=
  r.flags.any fun o => o.long = long

/-- The values of an option. -/
def all (r : Reading) (long : String) : List String :=
  (r.values.filter fun v => v.1.long = long).map fun v => v.2

/-- The value of an option that is given at most once. -/
def value? (r : Reading) (long : String) : Option String :=
  (r.all long).head?

end Reading

/-! ### Reading arguments -/

/-- An option behind two dashes: the reading with it, or the option if its value is still to
come. -/
def readLong (options : List OptionForm) (r : Reading) (text : List Char) :
    Except ArgumentStop (Reading × Option OptionForm) := do
  let name := text.takeWhile (· ≠ '=')
  let value? := (text.dropWhile (· ≠ '=')).tail?
  match options.find? fun o => o.long.toList = name with
  | none => .error .misuse
  | some o =>
    match o.kind, value? with
    | .flag, none => return (← r.addFlag o, none)
    | .flag, some _ => .error .misuse
    | _, none => return (r, some o)
    | _, some value => return (← r.addValue o (String.ofList value), none)

/-- Options behind one dash. What stands behind an option with a value is its value. -/
def readShort (options : List OptionForm) (r : Reading) :
    List Char → Except ArgumentStop (Reading × Option OptionForm)
  | [] => .ok (r, none)
  | c :: rest => do
    match options.find? fun o => o.short = some c with
    | none => .error .misuse
    | some o =>
      if o.kind = .flag then readShort options (← r.addFlag o) rest
      else
        match rest with
        | [] => return (r, some o)
        | '=' :: value => return (← r.addValue o (String.ofList value), none)
        | value => return (← r.addValue o (String.ofList value), none)

/-- Reads arguments one after the other; `pending` is the option whose value comes next. -/
def readFrom (form : CommandForm) (r : Reading) (pending : Option OptionForm) :
    List String → Except ArgumentStop Reading
  | [] => if pending.isSome then .error .misuse else .ok r
  | arg :: rest => do
    match pending, arg.toList with
    | none, ['-', '-'] => rest.foldlM (Reading.addPositional form.positional) r
    | none, '-' :: '-' :: text =>
      let (r, pending) ← readLong form.options r text
      readFrom form r pending rest
    | none, '-' :: c :: text =>
      let (r, pending) ← readShort form.options r (c :: text)
      readFrom form r pending rest
    | none, _ => readFrom form (← r.addPositional form.positional arg) none rest
    | some _, '-' :: _ :: _ => .error .misuse
    | some o, _ => readFrom form (← r.addValue o arg) none rest

/-- Reads the arguments of a command. -/
def read (form : CommandForm) (args : List String) : Except ArgumentStop Reading :=
  readFrom form .empty none args

/-! ### The commands -/

/-- The options of both commands that ask a question. -/
def questionOptions : List OptionForm :=
  [helpOption, ⟨"path", some 'p', .single .path⟩, ⟨"top-k", some 'k', .single .count⟩,
    ⟨"issue-title", none, .single .text⟩, ⟨"issue-body", none, .single .text⟩]

def initForm : CommandForm :=
  ⟨[helpOption, ⟨"index", some 'i', .flag⟩, ⟨"include", none, .repeated⟩,
    ⟨"exclude", none, .repeated⟩], .path⟩

def indexForm : CommandForm :=
  ⟨[helpOption, ⟨"no-embed", none, .flag⟩, ⟨"quiet", some 'q', .flag⟩,
    ⟨"verbose", some 'v', .flag⟩], .path⟩

def statusForm : CommandForm := ⟨[helpOption], .path⟩

def queryForm : CommandForm := ⟨⟨"json", some 'j', .flag⟩ :: questionOptions, .text⟩

def contextForm : CommandForm :=
  ⟨⟨"format", some 'f', .single .format⟩ :: questionOptions, .text⟩

/-- The issue of a question; a part of it that is not given is empty. -/
def issue? (r : Reading) : Option IssueContext :=
  match r.value? "issue-title", r.value? "issue-body" with
  | none, none => none
  | title, body => some ⟨title.getD "", body.getD ""⟩

/-- The question in a reading. -/
def question (r : Reading) : Except ArgumentStop Question :=
  match r.positional with
  | none => .error .misuse
  | some text =>
    .ok ⟨text, (r.value? "path").bind path?, (r.value? "top-k").bind count?, issue? r⟩

/-- The path in a reading. -/
def projectPath (r : Reading) : Option Path :=
  r.positional.bind path?

/-- The names of the commands. -/
def commandNames : List String := ["init", "index", "status", "query", "context"]

/-- The command with a given name and arguments. -/
def command (name : String) (args : List String) : Except ArgumentStop Command := do
  match name with
  | "init" =>
    let r ← read initForm args
    return .init (projectPath r) (r.flag "index") (r.all "include") (r.all "exclude")
  | "index" =>
    let r ← read indexForm args
    return .index (projectPath r) (!r.flag "no-embed") (r.flag "quiet") (r.flag "verbose")
  | "status" => return .status (projectPath (← read statusForm args))
  | "query" =>
    let r ← read queryForm args
    return .query (← question r) (r.flag "json")
  | "context" =>
    let r ← read contextForm args
    return .context (← question r) (((r.value? "format").bind format?).getD .markdown)
  | _ => .error .misuse

/-- What a short option in front of any command asks for; only help and the version can be
asked for there. -/
def stopOf (arg : String) : ArgumentStop :=
  match arg.toList with
  | '-' :: 'h' :: _ => .help
  | '-' :: 'V' :: _ => .version
  | _ => if arg = "--help" then .help else if arg = "--version" then .version else .misuse

/-- The command that arguments ask for. -/
def parse : List String → Except ArgumentStop Command
  | [] => .error .misuse
  | ["help"] | ["help", "help"] => .error .help
  | ["help", name] => .error (if commandNames.contains name then .help else .misuse)
  | name :: args =>
    if commandNames.contains name then command name args else .error (stopOf name)

end Arguments

end CodeAtlas
