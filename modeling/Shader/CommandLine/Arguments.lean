/-!
# The arguments of the command line

* `Invocation`: what a run is asked to do; `Command`, `Source`, `Delivery` are its parts;
* `Request`: an invocation, a wish for the version or for help, or a refusal;
* `parse`: the request of a list of arguments, which are read from left to right.

A word in front of the subcommand may only be a flag. Flags of one letter can be joined; `-o` takes
the rest of its word, or the next one, as its value. After `--` every word is an argument.
-/

namespace Shader.CommandLine

/-- Where a shader comes from. -/
inductive Source
  /-- A built-in shader. -/
  | preset (name : String)
  /-- A graph document in a file. -/
  | graph (file : String)
deriving DecidableEq, Repr

/-- Where a shader goes, and in which form. -/
structure Delivery where
  /-- The file to write; standard output without one. -/
  path : Option String := none
  /-- Whether the parts of the shader are wanted too, as JSON. -/
  json : Bool := false
deriving DecidableEq, Repr

/-- What to do. -/
inductive Command
  | render (source : Source) (delivery : Delivery)
  | list
deriving DecidableEq, Repr

/-- What to do, and whether to report on it. -/
structure Invocation where
  verbose : Bool
  command : Command
deriving DecidableEq, Repr

/-- What the arguments ask for. -/
inductive Request
  | run (invocation : Invocation)
  | version
  | help
  /-- The arguments make no sense. -/
  | refused
deriving DecidableEq, Repr

/-- The subcommands that do something. -/
inductive Subcommand
  | build
  | graph
  | list
deriving DecidableEq, Repr

namespace Subcommand

/-- The word for a subcommand. -/
def name : Subcommand → String
  | build => "build"
  | graph => "graph"
  | list => "list"

/-- Every subcommand. -/
def all : List Subcommand := [build, graph, list]

/-- The subcommand of a word. -/
def ofName? (word : String) : Option Subcommand := all.find? (·.name = word)

/-- Whether a subcommand renders a shader, and so takes an argument and the options for output. -/
def renders : Subcommand → Bool
  | build | graph => true
  | list => false

/-- Whether a subcommand takes the word as its argument. A file has a name, a preset may have none.
-/
def takes : Subcommand → String → Bool
  | build, _ => true
  | graph, word => !word.isEmpty
  | list, _ => false

end Subcommand

/-- What the words behind a subcommand have said so far. -/
structure Progress where
  verbose : Bool := false
  json : Bool := false
  path : Option String := none
  argument : Option String := none
  /-- Whether `--` has ended the options. -/
  plain : Bool := false

/-- What a word leads to: going on, perhaps with the next word as the value of `-o`, or an end. -/
inductive Reading (α : Type)
  | next (a : α)
  | wantPath (a : α)
  | finish (r : Request)

/-- Note a flag, which must not be given twice. -/
def once {α : Type} (given : Bool) (noted : α) : Reading α :=
  if given then .finish .refused else .next noted

namespace Progress

/-- Note the value of `-o`, which has to be a name and must not be given twice. -/
def setPath (p : Progress) (value : String) : Reading Progress :=
  if p.path.isSome || value.isEmpty then .finish .refused
  else .next { p with path := some value }

/-- Note the argument of a subcommand. -/
def setArgument (p : Progress) (sub : Subcommand) (word : String) : Reading Progress :=
  if p.argument.isSome || !sub.takes word then .finish .refused
  else .next { p with argument := some word }

/-- Read flags of one letter, joined in one word. -/
def readShort (sub : Subcommand) (p : Progress) : List Char → Reading Progress
  | [] => .next p
  | c :: cs =>
    if c = 'v' then
      if p.verbose then .finish .refused else readShort sub { p with verbose := true } cs
    else if c = 'h' then .finish .help
    else if c = 'o' && sub.renders then
      match cs with
      | [] => .wantPath p
      | d :: rest => p.setPath (String.ofList (if d = '=' then rest else cs))
    else .finish .refused

/-- Read one word behind a subcommand. -/
def readWord (sub : Subcommand) (p : Progress) (word : String) : Reading Progress :=
  if p.plain then p.setArgument sub word
  else
    match word.toList with
    | '-' :: '-' :: [] => .next { p with plain := true }
    | '-' :: '-' :: _ =>
      if word = "--verbose" then once p.verbose { p with verbose := true }
      else if word = "--json" && sub.renders then once p.json { p with json := true }
      else if word = "--help" then .finish .help
      else .finish .refused
    | '-' :: c :: cs => readShort sub p (c :: cs)
    | _ => p.setArgument sub word

/-- The request of a subcommand whose words are all read. -/
def complete (p : Progress) (sub : Subcommand) (verbose : Bool) : Request :=
  let run (command : Command) : Request := .run ⟨verbose || p.verbose, command⟩
  match sub, p.argument with
  | .list, _ => run .list
  | .build, some name => run (.render (.preset name) ⟨p.path, p.json⟩)
  | .graph, some file => run (.render (.graph file) ⟨p.path, p.json⟩)
  | _, none => .refused

end Progress

/-- Whether a word can be the value of `-o`. -/
def isValue (word : String) : Bool := word = "-" || word.toList.head? ≠ some '-'

/-- Read the words behind a subcommand. -/
def parseWords (sub : Subcommand) (verbose : Bool) (p : Progress) : List String → Request
  | [] => p.complete sub verbose
  | word :: rest =>
    match p.readWord sub word with
    | .next p => parseWords sub verbose p rest
    | .finish r => r
    | .wantPath p =>
      match rest with
      | value :: rest =>
        if isValue value then
          match p.setPath value with
          | .next p => parseWords sub verbose p rest
          | _ => .refused
        else .refused
      | [] => .refused

/-- Read flags of one letter in front of the subcommand. -/
def readShortFront (verbose : Bool) : List Char → Reading Bool
  | [] => .next verbose
  | c :: cs =>
    if c = 'v' then if verbose then .finish .refused else readShortFront true cs
    else if c = 'V' then .finish .version
    else if c = 'h' then .finish .help
    else .finish .refused

/-- Read one word in front of the subcommand. -/
def readFront (verbose : Bool) (word : String) : Reading Bool :=
  match word.toList with
  | '-' :: '-' :: _ =>
    if word = "--verbose" then once verbose true
    else if word = "--version" then .finish .version
    else if word = "--help" then .finish .help
    else .finish .refused
  | '-' :: c :: cs => readShortFront verbose (c :: cs)
  | _ => .finish .refused

/-- The request for help on the subcommands that the words name. -/
def helpOn : List String → Request
  | [] => .help
  | [word] => if (Subcommand.ofName? word).isSome || word = "help" then .help else .refused
  | _ => .refused

/-- Read the words from the front. -/
def parseFront (verbose : Bool) : List String → Request
  | [] => .refused
  | word :: rest =>
    match Subcommand.ofName? word with
    | some sub => parseWords sub verbose {} rest
    | none =>
      if word = "help" then helpOn rest
      else
        match readFront verbose word with
        | .next verbose => parseFront verbose rest
        | .finish r => r
        | .wantPath _ => .refused

/-- **The request of a list of arguments.** -/
def parse (args : List String) : Request := parseFront false args

end Shader.CommandLine
