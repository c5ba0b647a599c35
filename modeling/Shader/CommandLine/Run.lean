import Shader.CommandLine.Arguments
import Shader.CommandLine.Directory
import Shader.CommandLine.Log
import Shader.Document.Graph
import Shader.Preset

/-!
# A run of the command line

A run goes through stages: find the source, build the shader, deliver it. The first stage that fails
ends it, and nothing is written before the last one.

* `Trouble`: the stage that failed and why; `Trouble.message` words it;
* `Invocation.run`: the run of an invocation, in any monad with files;
* `Report`: what a run shows: its exit code and its two outputs.
-/

namespace Shader.CommandLine

/-- Why a run failed. -/
inductive Trouble
  | unknownPreset (name : String)
  | presetFailed (name : String) (failure : Failure)
  | unreadable (file : String) (fault : FileFault)
  | malformed (file : String) (failure : Failure)
  | graphFailed (file : String) (failure : Failure)
  | unwritable (path : String) (fault : FileFault)
deriving DecidableEq, Repr

/-- A name in a message. -/
def inMarks (name : String) : String := "'" ++ name ++ "'"

/-- The wording of a trouble: what could not be done, with what, and why. -/
def Trouble.message : Trouble → String
  | unknownPreset name =>
    "unknown preset " ++ inMarks name ++ " (run `glsl-gen list` to see presets)"
  | presetFailed name f => "failed to build preset " ++ inMarks name ++ ": " ++ f.message
  | unreadable file f => "cannot read " ++ inMarks file ++ ": " ++ f.message
  | malformed file f => "cannot parse " ++ inMarks file ++ ": " ++ f.message
  | graphFailed file f => "failed to generate " ++ inMarks file ++ ": " ++ f.message
  | unwritable path f => "cannot write " ++ inMarks path ++ ": " ++ f.message

/-- What a run shows. -/
structure Report where
  code : Nat
  stdout : String := ""
  /-- The texts on standard error, each ended by a new line. -/
  stderr : List String := []
deriving DecidableEq, Repr

/-- The report of a run that succeeded or failed, after what was logged. -/
def Report.of (logged : List String) : Except Trouble Report → Report
  | .ok r => { r with stderr := logged ++ r.stderr }
  | .error t => { code := 1, stderr := logged ++ ["error: " ++ t.message] }

/-- The shader of a preset, and what its builder reported. -/
def buildPreset (name : String) : Except Trouble Output × List Event :=
  match Preset.find? name with
  | none => (.error (.unknownPreset name), [])
  | some p =>
    let (r, b) := Program.generate p.uniforms p.main
    (r.mapError (.presetFailed name), b.events)

/-- The shader of a graph document, and what its builder reported. -/
def buildGraph (file text : String) : Except Trouble Output × List Event :=
  match Graph.ofText? text with
  | .error f => (.error (.malformed file f), [])
  | .ok g =>
    let (r, b) := g.generate
    (r.mapError (.graphFailed file), b.events)

/-- The shader of a source, and what its builder reported. -/
def Source.build {m : Type → Type} [Monad m] [Files m] :
    Source → m (Except Trouble Output × List Event)
  | .preset name => return buildPreset name
  | .graph file => do
    match ← readFile file with
    | .error f => return (.error (.unreadable file f), [])
    | .ok text => return buildGraph file text

/-- The text of a shader in the form that is asked for. -/
def Delivery.text (d : Delivery) (o : Output) : String :=
  if d.json then Json.pretty o.toJson else o.source

/-- Write a shader where it is wanted. A file gets the bare text, and its size is told. -/
def Delivery.deliver {m : Type → Type} [Monad m] [Files m] (d : Delivery) (o : Output) :
    m (Except Trouble Report) := do
  let text := d.text o
  match d.path with
  | none => return .ok { code := 0, stdout := text ++ "\n" }
  | some path =>
    match ← writeFile path text.toUTF8 with
    | .error f => return .error (.unwritable path f)
    | .ok () =>
      return .ok { code := 0, stderr := [s!"wrote {path} ({text.utf8ByteSize} bytes)"] }

/-- A text, with blanks behind it up to a width. -/
def padded (width : Nat) (s : String) : String :=
  s ++ String.ofList (List.replicate (width - s.length) ' ')

/-- The lines about the presets: the names in a column of twelve, then the descriptions. -/
def presetList : String :=
  String.join (presets.map fun p => padded 12 p.name ++ " " ++ p.description ++ "\n")

/-- **Run an invocation.** `set` is what is set from outside about the log, if anything is. -/
def Invocation.run {m : Type → Type} [Monad m] [Files m] (i : Invocation) (set : Option Setting) :
    m Report := do
  match i.command with
  | .list => return { code := 0, stdout := presetList }
  | .render source delivery =>
    let (built, events) ← source.build
    let logged := logLines (.inForce set i.verbose) events
    match built with
    | .error t => return .of logged (.error t)
    | .ok o => return .of logged (← delivery.deliver o)

/-- The name and the number of the program. -/
def versionText : String := "glsl-gen 0.1.0\n"

/-- How the program is used. -/
def usageText : String :=
  "Usage: glsl-gen [-v] <COMMAND>\n\nCommands:\n" ++
  "  build <PRESET> [-o PATH] [--json]  Render a built-in preset\n" ++
  "  graph <FILE> [-o PATH] [--json]    Render a JSON expression graph\n" ++
  "  list                               List built-in presets\n"

/-- Answer a request. -/
def Request.answer {m : Type → Type} [Monad m] [Files m] (r : Request) (set : Option Setting) :
    m Report :=
  match r with
  | .run i => i.run set
  | .version => return { code := 0, stdout := versionText }
  | .help => return { code := 0, stdout := usageText }
  | .refused => return { code := 2, stderr := [usageText] }

end Shader.CommandLine
