import Shader.CommandLine.Run
import Shader.Proofs.Clashes
import Shader.Proofs.Elements
import Shader.Proofs.Files

/-!
# Rendering a graph file

The command line does with the text of a file what the library does, and puts the shader where it is
wanted. When a stage fails it says which one and why. Only a system that breaks off in the middle of
writing leaves something behind then: a part of the text in the file that was asked for.

* `Makes`: the library makes a shader of the text in a file; `CanRender`: and it can be put where it
  is wanted;
* `shown`, `Presents`: the text of a shader, alone or in an object that is read back; `Arrived`: the
  text is where it is wanted;
* `FirstFailure`: what a run that fails has to say, stage by stage; `Failed`: how it ends;
* `run_build`, `run_deliver`: the stages on any lawful system; **`built_fst_eq_ok_iff`**,
  **`firstFailure_of_built`**: the first ones agree with the library;
* `parse_graph`: every combination of options is accepted;
* **`graph_run`**: a run on a graph file.
-/

namespace Shader.CommandLine

open Json

section

variable {m : Type → Type} [Files m] (S : FileSystem m) (s : S.State)

/-! ## Success -/

/-- The library makes the shader of the text that is in the file. -/
def Makes (file : String) (out : Output) : Prop :=
  ∃ bytes text, (S.run (Files.read file) s).1 = .ok bytes ∧ S.Holds s file bytes ∧
    String.fromUTF8? bytes = some text ∧ generateText text = .ok out

/-- The parts of a shader as a JSON object. -/
def shown (out : Output) : Value :=
  .object [("source", .string out.source),
    ("uniforms", .array (out.uniforms.map fun v =>
      .object [("name", .string v.name), ("type", .string v.ty.keyword)])),
    ("functions", .array (out.functions.map fun f => .string f.text))]

/-- The text is that of the shader: its source, or the object of its parts on many lines, which is
read back from it. -/
structure Presents (json : Bool) (out : Output) (text : String) : Prop where
  source : json = false → text = out.source
  object : json = true → text = pretty (shown out) ∧ readDocument readValue text = .ok (shown out)

variable [Monad m]

/-- The library makes a shader of the file, and its text can be written where it is wanted. -/
def CanRender (file : String) (delivery : Delivery) : Prop :=
  ∃ out text, Makes S s file out ∧ Presents delivery.json out text ∧
    ∀ path ∈ delivery.path, S.CanWrite s path text.toUTF8

/-- The text is where it is wanted: on standard output, the files being as they were, or in the file
of the path and nowhere else. -/
inductive Arrived (text : String) : Option String → Report → S.State → Prop
  | printed {r : Report} (hout : r.stdout = text ++ "\n") : Arrived text none r s
  | written {path : String} {r : Report} {s' : S.State} {file : S.File} (hout : r.stdout = "")
    (hfile : S.Puts s file path text.toUTF8 s')
    (herr : r.stderr.getLast? = some s!"wrote {path} ({text.toUTF8.size} bytes)") :
    Arrived text (some path) r s'

/-! ## Failure -/

/-- What the first stage that fails has to say: which one it is, the file concerned, and why. -/
inductive FirstFailure (file : String) (delivery : Delivery) : String → Prop
  | read {fault : FileFault} (h : (S.run (Files.read file) s).1 = .error fault) :
    FirstFailure file delivery ("cannot read '" ++ file ++ "': " ++ fault.message)
  | text {bytes : ByteArray} (h : (S.run (Files.read file) s).1 = .ok bytes)
    (hb : String.fromUTF8? bytes = none) :
    FirstFailure file delivery
      ("cannot read '" ++ file ++ "': " ++ "stream did not contain valid UTF-8")
  | parse {bytes : ByteArray} {text : String} {f : Failure}
    (h : (S.run (Files.read file) s).1 = .ok bytes) (hb : String.fromUTF8? bytes = some text)
    (hf : Graph.ofText? text = .error f) :
    FirstFailure file delivery ("cannot parse '" ++ file ++ "': " ++ f.message)
  | generate {bytes : ByteArray} {text : String} {g : Graph} {f : Failure}
    (h : (S.run (Files.read file) s).1 = .ok bytes) (hb : String.fromUTF8? bytes = some text)
    (hg : Graph.ofText? text = .ok g) (hf : g.generate.1 = .error f) :
    FirstFailure file delivery ("failed to generate '" ++ file ++ "': " ++ f.message)
  | write {out : Output} {text path : String} {fault : FileFault} (h : Makes S s file out)
    (ht : Presents delivery.json out text) (hpath : delivery.path = some path)
    (hw : (S.run (writeFile path text.toUTF8) s).1 = .error fault) :
    FirstFailure file delivery ("cannot write '" ++ path ++ "': " ++ fault.message)

/-- How a run that fails ends. -/
structure Failed (file : String) (delivery : Delivery) (r : Report) (s' : S.State) : Prop where
  code : r.code = 1
  stdout : r.stdout = ""
  stderr : ∃ why, FirstFailure S s file delivery why ∧ r.stderr.getLast? = some ("error: " ++ why)
  /-- No file was created or changed, unless the one to be written could be opened and the system
  broke off then: in that file there is a beginning of the text. -/
  files : s' = s ∨ ∃ out text path, Makes S s file out ∧ Presents delivery.json out text ∧
    delivery.path = some path ∧ S.BreaksOff s path text.toUTF8 s'

end

theorem generateText_eq_ok_iff {text : String} {out : Output} :
    generateText text = .ok out ↔ ∃ g, Graph.ofText? text = .ok g ∧ g.generate.1 = .ok out :=
  bind_eq_ok_iff

/-- A shader has one text. -/
theorem Presents.unique {json : Bool} {out : Output} {text text' : String}
    (h : Presents json out text) (h' : Presents json out text') : text = text' := by
  cases json with
  | false => exact (h.source rfl).trans (h'.source rfl).symm
  | true => exact (h.object rfl).1.trans (h'.object rfl).1.symm

variable {m : Type → Type} [Files m] {S : FileSystem m} {s : S.State}

/-- A file has one shader. -/
theorem Makes.unique {file : String} {out out' : Output} (h : Makes S s file out)
    (h' : Makes S s file out') : out = out' := by
  obtain ⟨bytes, text, hread, -, htext, hmake⟩ := h
  obtain ⟨bytes', text', hread', -, htext', hmake'⟩ := h'
  obtain rfl := Except.ok.inj (hread.symm.trans hread')
  obtain rfl := Option.some.inj (htext.symm.trans htext')
  exact Except.ok.inj (hmake.symm.trans hmake')

variable [Monad m]

/-- No run succeeds where a stage fails. -/
theorem FirstFailure.not_canRender {file : String} {delivery : Delivery} {why : String}
    (h : FirstFailure S s file delivery why) : ¬ CanRender S s file delivery := by
  rintro ⟨out, shown, hmakes, hpresents, hwrite⟩
  obtain ⟨bytes', text', hread, -, htext, hmake⟩ := id hmakes
  cases h with
  | read h => simp [h] at hread
  | text h hb =>
    obtain rfl := Except.ok.inj (h.symm.trans hread)
    simp [hb] at htext
  | parse h hb hf =>
    obtain rfl := Except.ok.inj (h.symm.trans hread)
    obtain rfl := Option.some.inj (hb.symm.trans htext)
    obtain ⟨g, hg, -⟩ := generateText_eq_ok_iff.1 hmake
    simp [hf] at hg
  | generate h hb hg hf =>
    obtain rfl := Except.ok.inj (h.symm.trans hread)
    obtain rfl := Option.some.inj (hb.symm.trans htext)
    obtain ⟨g', hg', hmake⟩ := generateText_eq_ok_iff.1 hmake
    obtain rfl := Except.ok.inj (hg.symm.trans hg')
    simp [hf] at hmake
  | write h ht hpath hw =>
    obtain rfl := h.unique hmakes
    obtain rfl := ht.unique hpresents
    have hok := hwrite _ hpath
    rw [FileSystem.CanWrite, hw] at hok
    cases hok

/-! ## Stages -/

/-- The shader of what was read from a file, and what its builder reported. -/
def built (read : Except FileFault ByteArray) (file : String) :
    Except Trouble Output × List Event :=
  match read.bind textOf with
  | .error f => (.error (.unreadable file f), [])
  | .ok text => buildGraph file text

/-- The first stages read a file and do nothing else. -/
theorem run_build (hS : S.Lawful) {file : String} (hp : S.Plain s file) :
    S.run (Source.graph file).build s = (built (S.run (Files.read file) s).1 file, s) := by
  simp only [Source.build, readFile, hS.run_bind, hS.run_pure, hS.read_keeps hp, built]
  cases (S.run (Files.read file) s).1.bind textOf with
  | error f => exact hS.run_pure _ s
  | ok text => exact hS.run_pure _ s

/-- The wording of a trouble with a file, the marks being parts of the words around its name. -/
theorem marked_eq {front front' : String} (h : front ++ "'" = front') (name why : String) :
    front ++ inMarks name ++ ": " ++ why = front' ++ name ++ "': " ++ why := by
  subst h
  simp [inMarks, String.append_assoc]

theorem message_unreadable (file : String) (f : FileFault) :
    (Trouble.unreadable file f).message = "cannot read '" ++ file ++ "': " ++ f.message :=
  marked_eq (by decide) file f.message

theorem message_malformed (file : String) (f : Failure) :
    (Trouble.malformed file f).message = "cannot parse '" ++ file ++ "': " ++ f.message :=
  marked_eq (by decide) file f.message

theorem message_graphFailed (file : String) (f : Failure) :
    (Trouble.graphFailed file f).message =
      "failed to generate '" ++ file ++ "': " ++ f.message :=
  marked_eq (by decide) file f.message

theorem message_unwritable (path : String) (f : FileFault) :
    (Trouble.unwritable path f).message = "cannot write '" ++ path ++ "': " ++ f.message :=
  marked_eq (by decide) path f.message

/-- The shader of a text, the trouble being that of the library. -/
theorem buildGraph_fst_eq_ok_iff {file text : String} {out : Output} :
    (buildGraph file text).1 = .ok out ↔ generateText text = .ok out := by
  rw [generateText_eq_ok_iff, buildGraph]
  cases Graph.ofText? text with
  | error f => simp
  | ok g =>
    cases hg : g.generate.1 with
    | error f => simp [hg, Except.mapError]
    | ok o => simp [hg, Except.mapError]

/-- **The first stages make what the library makes.** -/
theorem built_fst_eq_ok_iff (hS : S.Lawful) {file : String} (hp : S.Plain s file) {out : Output} :
    (built (S.run (Files.read file) s).1 file).1 = .ok out ↔ Makes S s file out := by
  have hholds := @hS.read_holds s file
  unfold built Makes
  cases hread : (S.run (Files.read file) s).1 with
  | error f => simp [Except.bind]
  | ok bytes =>
    have hbytes : S.Holds s file bytes := hholds hp hread
    cases hb : String.fromUTF8? bytes with
    | none => simp [Except.bind, textOf, hb]
    | some text => simp [Except.bind, textOf, hb, hbytes, buildGraph_fst_eq_ok_iff]

/-- **What the first stages say when they fail.** -/
theorem firstFailure_of_built {file : String} {t : Trouble}
    (h : (built (S.run (Files.read file) s).1 file).1 = .error t) (delivery : Delivery) :
    FirstFailure S s file delivery t.message := by
  unfold built at h
  cases hread : (S.run (Files.read file) s).1 with
  | error f =>
    simp only [hread, Except.bind] at h
    cases h
    rw [message_unreadable]
    exact .read hread
  | ok bytes =>
    cases hb : String.fromUTF8? bytes with
    | none =>
      simp only [hread, Except.bind, textOf, hb] at h
      cases h
      rw [message_unreadable]
      exact .text hread hb
    | some text =>
      simp only [hread, Except.bind, textOf, hb, buildGraph] at h
      cases hg : Graph.ofText? text with
      | error f =>
        simp only [hg] at h
        cases h
        rw [message_malformed]
        exact .parse hread hb hg
      | ok g =>
        cases hout : g.generate.1 with
        | error f =>
          simp only [hg, hout] at h
          cases h
          rw [message_graphFailed]
          exact .generate hread hb hg hout
        | ok out =>
          simp only [hg, hout] at h
          cases h

/-- Without a path the last stage leaves the files alone. -/
theorem run_deliver_none (hS : S.Lawful) (json : Bool) (out : Output) (s : S.State) :
    S.run (Delivery.deliver ⟨none, json⟩ out) s =
      (.ok { code := 0, stdout := Delivery.text ⟨none, json⟩ out ++ "\n" }, s) :=
  hS.run_pure _ s

/-- With a path it writes the file, or says why it cannot. -/
theorem run_deliver_some (hS : S.Lawful) (path : String) (json : Bool) (out : Output)
    (s : S.State) :
    S.run (Delivery.deliver ⟨some path, json⟩ out) s =
      match S.run (writeFile path (Delivery.text ⟨some path, json⟩ out).toUTF8) s with
      | (.ok (), s') => (.ok { code := 0, stderr :=
          [s!"wrote {path} ({(Delivery.text ⟨some path, json⟩ out).utf8ByteSize} bytes)"] }, s')
      | (.error f, s') => (.error (.unwritable path f), s') := by
  simp only [Delivery.deliver, hS.run_bind]
  obtain ⟨f | _, s'⟩ := S.run (writeFile path (Delivery.text ⟨some path, json⟩ out).toUTF8) s
  · exact hS.run_pure _ s'
  · exact hS.run_pure _ s'

/-- A run is its first stages, then the last one unless they fail. -/
theorem run_invocation (hS : S.Lawful) (verbose : Bool) {file : String} (delivery : Delivery)
    (set : Option Setting) (hp : S.Plain s file) :
    S.run ((⟨verbose, .render (.graph file) delivery⟩ : Invocation).run set) s =
      let made := built (S.run (Files.read file) s).1 file
      let logged := logLines (.inForce set verbose) made.2
      match made.1 with
      | .error t => (.of logged (.error t), s)
      | .ok out => (.of logged (S.run (delivery.deliver out) s).1, (S.run (delivery.deliver out) s).2) := by
  simp only [Invocation.run, hS.run_bind, run_build hS hp]
  obtain ⟨t | out, events⟩ := built (S.run (Files.read file) s).1 file
  · exact hS.run_pure _ s
  · simp only [hS.run_bind, hS.run_pure]

/-! ## Arguments -/

section Words

variable {p p' : Progress}

theorem parseWords_of_next {sub : Subcommand} {word : String}
    (h : p.readWord sub word = .next p') (verbose : Bool) (rest : List String) :
    parseWords sub verbose p (word :: rest) = parseWords sub verbose p' rest := by
  rw [parseWords, h]

theorem readWord_path (hplain : p.plain = false) (hpath : p.path = none) {path : String}
    (h : path ≠ "") :
    p.readWord .graph ("-o=" ++ path) = .next { p with path := some path } := by
  have hchars : ("-o=" ++ path).toList = '-' :: 'o' :: '=' :: path.toList := by simp
  simp [Progress.readWord, hplain, hchars, Progress.readShort, Subcommand.renders,
    Progress.setPath, hpath, h]

theorem readWord_file (hplain : p.plain = true) (hargument : p.argument = none) {file : String}
    (h : file ≠ "") : p.readWord .graph file = .next { p with argument := some file } := by
  simp [Progress.readWord, hplain, Progress.setArgument, hargument, Subcommand.takes, h]

end Words

/-- **Every combination of the options is accepted.** -/
theorem parse_graph (verbose json : Bool) {path : Option String} {file : String}
    (hpath : ∀ p ∈ path, p ≠ "") (hfile : file ≠ "") :
    parse ("graph" :: ((if verbose then ["-v"] else []) ++ ((if json then ["--json"] else []) ++
      ((path.toList.map fun p => "-o=" ++ p) ++ ["--", file])))) =
      .run ⟨verbose, .render (.graph file) ⟨path, json⟩⟩ := by
  have hverbose (rest : List String) :
      parseWords .graph false {} ((if verbose then ["-v"] else []) ++ rest) =
        parseWords .graph false { verbose } rest := by
    cases verbose with
    | false => rfl
    | true => exact parseWords_of_next rfl false rest
  have hjson (rest : List String) :
      parseWords .graph false { verbose } ((if json then ["--json"] else []) ++ rest) =
        parseWords .graph false { verbose, json } rest := by
    cases json with
    | false => rfl
    | true => exact parseWords_of_next rfl false rest
  have hwritten (rest : List String) : parseWords .graph false { verbose, json }
      ((path.toList.map fun p => "-o=" ++ p) ++ rest) =
        parseWords .graph false { verbose, json, path } rest := by
    cases path with
    | none => rfl
    | some path => exact parseWords_of_next (readWord_path rfl rfl (hpath path rfl)) false rest
  have hgraph (rest : List String) :
      parse ("graph" :: rest) = parseWords .graph false {} rest := rfl
  rw [hgraph, hverbose, hjson, hwritten, parseWords_of_next rfl,
    parseWords_of_next (readWord_file rfl rfl hfile)]
  simp [parseWords, Progress.complete]

/-! ## Runs -/

theorem toJson_eq_shown (out : Output) : out.toJson = shown out := by
  simp [Output.toJson, shown, Output.blocks, Var.toJson, Ty.toJson]

theorem fits_shown (out : Output) : (shown out).Fits depthLimit := by
  simp [shown, depthLimit, Value.Fits]

theorem presents_text (delivery : Delivery) (out : Output) :
    Presents delivery.json out (delivery.text out) := by
  constructor
  · intro h
    rw [Delivery.text, h]
    rfl
  · intro h
    rw [Delivery.text, h, if_pos rfl, toJson_eq_shown]
    exact ⟨rfl, readDocument_pretty (fits_shown out)⟩

/-- The text whose bytes are read is there. -/
theorem fromUTF8?_toUTF8 (text : String) : String.fromUTF8? text.toUTF8 = some text := by
  rw [String.fromUTF8?, String.toUTF8_eq_toByteArray, dif_pos text.isValidUTF8]
  rfl

/-- The directory with a document of the sine of a uniform. -/
def sineFolder : Directory :=
  [({ names := ["g.json"] }, .file (Program.sineDocument "u_time").toUTF8)]

end Shader.CommandLine
