import Shader.Builder
import Shader.Text.Quoted

/-!
# The log

* `Level`: how much is logged; `Level.ofName?` reads the name of a level;
* `Directive`: what a setting says about some parts of a program; `Directive.read?` reads one,
  `Level.ofSetting` a setting, and `Level.inForce` is the level that comes out;
* `Event.level`, `Event.text`: how the steps of a build are logged;
* `logLines`: the lines of a log at a level.
-/

namespace Shader

namespace CommandLine

/-- How much is logged, from everything to nothing. -/
inductive Level
  | trace
  | debug
  | info
  | warn
  | error
  | off
deriving DecidableEq, Repr

namespace Level

/-- Every level. -/
def all : List Level := [trace, debug, info, warn, error, off]

/-- The name of a level. -/
def name : Level → String
  | trace => "trace"
  | debug => "debug"
  | info => "info"
  | warn => "warn"
  | error => "error"
  | off => "off"

/-- The place of a level, counted from the most talkative. -/
def rank : Level → Nat
  | trace => 0
  | debug => 1
  | info => 2
  | warn => 3
  | error => 4
  | off => 5

/-- The level that a word stands for: its name in small or capital letters, or its number, counted
from the one that logs nothing. -/
def ofName? (word : String) : Option Level :=
  all.find? fun l => l.name = word.toLower || toString (5 - l.rank) = word

/-- The word in front of a log line. -/
def heading (l : Level) : String := l.name.toUpper

/-- Whether something of the level `l` is logged when the level in force is `limit`. -/
def shownAt (l limit : Level) : Bool := limit.rank ≤ l.rank

end Level

/-! ## Settings -/

/-- The part of the program that logs. -/
def loggingPart : String := "glsl_gen::codegen"

/-- What a setting says: how much is logged by the parts of a program whose names begin with a text. -/
structure Directive where
  part : String := ""
  level : Level
deriving DecidableEq, Repr

namespace Directive

/-- Whether a text may be the name of a part. -/
def isPart (word : String) : Bool :=
  !word.isEmpty && word.toList.all fun c => c.isAlphanum || c = '_' || c = ':' || c = '-'

/-- Read a directive: a level for every part, or a part, which may be given a level and else logs
everything. Directives about spans and fields are not among them. -/
def read? (word : String) : Option Directive :=
  match Level.ofName? word with
  | some level => some { level }
  | none =>
    match word.splitOn "=" with
    | [part] | [part, ""] => if isPart part then some ⟨part, .trace⟩ else none
    | [part, level] => if isPart part then (Level.ofName? level).map (⟨part, ·⟩) else none
    | _ => none

/-- Whether a directive is about the part of the program that logs. -/
def applies (d : Directive) : Bool := d.part.toList.isPrefixOf loggingPart.toList

/-- The directive in force after another one: the one that says more about the part, or the later
one. -/
def refine (best : Option Directive) (d : Directive) : Option Directive :=
  if d.applies && best.all (·.part.length ≤ d.part.length) then some d else best

end Directive

/-- What is set from outside: a level, or nothing if the setting cannot be read. -/
abbrev Setting : Type := Option Level

namespace Level

/-- The level of a setting from outside, whose directives stand between commas. A part that no
directive is about logs nothing; an empty setting asks for errors. -/
def ofSetting (text : String) : Setting := do
  let directives ← ((text.splitOn ",").filter (· ≠ "")).mapM Directive.read?
  if directives.isEmpty then return .error
  return ((directives.foldl Directive.refine none).map (·.level)).getD .off

/-- The level in force: the one that is set, or else warnings, or steps if they are asked for. -/
def inForce (set : Option Setting) (verbose : Bool) : Level :=
  set.join.getD (if verbose then .debug else .warn)

end Level

end CommandLine

namespace Event

open CommandLine

/-- The level of an event. Lines are more than one usually wants to see. -/
def level : Event → Level
  | emitted _ _ => .trace
  | buildStarted _ | functionDefined _ | buildFinished _ _ _ | buildFailed _ => .debug

/-- The wording of an event. -/
def text : Event → String
  | buildStarted start => s!"build started start_var={start}"
  | emitted depth line => s!"emit depth={depth} line=" ++ line.text
  | functionDefined d =>
    "function defined function=" ++ quoted d.signature.name ++ s!" lines={d.lines.length}"
  | buildFinished uniforms functions vars =>
    s!"build finished uniforms={uniforms} functions={functions} vars={vars}"
  | buildFailed failure => "build failed error=" ++ failure.message

/-- The lines of an event in a log. -/
def logged (e : Event) : String := e.level.heading ++ " " ++ e.text

end Event

/-- The lines of a log at a level. -/
def CommandLine.logLines (limit : CommandLine.Level) (events : List Event) : List String :=
  (events.filter fun e => e.level.shownAt limit).map (·.logged)

end Shader
