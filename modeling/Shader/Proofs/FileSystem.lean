import Shader.CommandLine.Directory

/-!
# Systems with files

What becomes of a program that reads and writes files is up to the system it runs on. Here a system is
any interpretation of the programs in a monad with files, and all that is known of it are the laws of
reading, opening and writing regular files.

* `FileSystem`: what a system makes of a program, and what its files are;
* `FileSystem.Holds`, `FileSystem.Puts`: the content of a file, and a change of one file only;
* **`FileSystem.Lawful`**: the laws;
* **`Lawful.puts_of_writeFile`**, **`Lawful.eq_or_breaksOff_of_writeFile`**: what a file that is written
  leaves, and what one that cannot be written does.
-/

namespace Shader.CommandLine

/-- A system: what a program answers and leaves behind, and what files there are. -/
structure FileSystem (m : Type → Type) where
  /-- What the files and folders are like at a moment. When a file was last read is no part of it. -/
  State : Type
  /-- The regular files that there may be. Several paths may lead to the same one. -/
  File : Type
  run {α : Type} : m α → State → α × State
  /-- The file a path leads to, if it leads to one. -/
  leads? : State → String → Option File
  /-- The bytes of a file, if it exists. -/
  content? : State → File → Option ByteArray
  /-- The path leads to no device, nor to anything else that is not just a regular file or a folder.
  It need not lead to anything. -/
  Plain : State → String → Prop

namespace FileSystem

variable {m : Type → Type}

/-- There is a file at the path, with these bytes. -/
def Holds (S : FileSystem m) (s : S.State) (path : String) (bytes : ByteArray) : Prop :=
  ∃ file, S.leads? s path = some file ∧ S.content? s file = some bytes

/-- From a state to another one a single file has changed, if any: the one that the path leads to
then. It has these bytes, and no other file was created, removed or changed. -/
structure Puts (S : FileSystem m) (s : S.State) (file : S.File) (path : String) (bytes : ByteArray)
    (s' : S.State) : Prop where
  leads : S.leads? s' path = some file
  content : S.content? s' file = some bytes
  others : ∀ other, other ≠ file → S.content? s' other = S.content? s other

variable {S : FileSystem m} {s s₁ s' : S.State} {path : String} {bytes : ByteArray}

/-- One change of a file after another. -/
theorem Puts.trans {file : S.File} {before : ByteArray} (h : S.Puts s file path before s₁)
    (h₁ : S.Puts s₁ file path bytes s') : S.Puts s file path bytes s' where
  leads := h₁.leads
  content := h₁.content
  others other hne := (h₁.others other hne).trans (h.others other hne)

variable [Monad m] [Files m]

/-- **The laws of a system**, as far as regular files go. -/
structure Lawful (S : FileSystem m) : Prop where
  /-- An answer takes no action. -/
  run_pure {α : Type} (a : α) (s : S.State) : S.run (pure a) s = (a, s)
  /-- Programs are carried out one after the other. -/
  run_bind {α β : Type} (x : m α) (k : α → m β) (s : S.State) :
    S.run (x >>= k) s = S.run (k (S.run x s).1) (S.run x s).2
  /-- Reading a file changes nothing. -/
  read_keeps {s : S.State} {path : String} (hp : S.Plain s path) :
    (S.run (Files.read path) s).2 = s
  /-- What is read is what is in the file. -/
  read_holds {s : S.State} {path : String} {bytes : ByteArray} (hp : S.Plain s path)
    (h : (S.run (Files.read path) s).1 = .ok bytes) : S.Holds s path bytes
  /-- If a file cannot be opened, none is created or emptied. -/
  create_error {s s' : S.State} {path : String} {f : FileFault} (hp : S.Plain s path)
    (h : S.run (Files.create path) s = (.error f, s')) : s' = s
  /-- A file that was opened to be written is there, and it is empty. -/
  create_ok {s s' : S.State} {path : String} {handle : Files.Handle m} (hp : S.Plain s path)
    (h : S.run (Files.create path) s = (.ok handle, s')) : ∃ file, S.Puts s file path .empty s'
  /-- What is written is in the file that was opened. -/
  fill_ok {s s₁ s' : S.State} {path : String} {handle : Files.Handle m} {file : S.File}
    {bytes : ByteArray} (hp : S.Plain s path)
    (hopen : S.run (Files.create path) s = (.ok handle, s₁)) (hfile : S.Puts s file path .empty s₁)
    (h : S.run (Files.fill handle bytes) s₁ = (.ok (), s')) : S.Puts s₁ file path bytes s'
  /-- Writing may break off anywhere: there may be no room left, or the disk may fail. What was
  written by then stays in the file. -/
  fill_error {s s₁ s' : S.State} {path : String} {handle : Files.Handle m} {file : S.File}
    {bytes : ByteArray} {f : FileFault} (hp : S.Plain s path)
    (hopen : S.run (Files.create path) s = (.ok handle, s₁)) (hfile : S.Puts s file path .empty s₁)
    (h : S.run (Files.fill handle bytes) s₁ = (.error f, s')) :
    ∃ n, S.Puts s₁ file path (bytes.extract 0 n) s'

/-- The bytes can be made the content of the file at the path. -/
def CanWrite (S : FileSystem m) (s : S.State) (path : String) (bytes : ByteArray) : Prop :=
  (S.run (writeFile path bytes) s).1 = .ok ()

/-- The file could be opened, but writing the bytes broke off. A beginning of them is in the file
then, and nothing else has changed. -/
structure BreaksOff (S : FileSystem m) (s : S.State) (path : String) (bytes : ByteArray)
    (s' : S.State) : Prop where
  stage : ∃ handle s₁ f, S.run (Files.create path) s = (.ok handle, s₁) ∧
    S.run (Files.fill handle bytes) s₁ = (.error f, s')
  puts : ∃ file n, S.Puts s file path (bytes.extract 0 n) s'

/-! ## Writing a file -/

/-- A file is opened, and then it is written. -/
theorem Lawful.run_writeFile (hS : S.Lawful) (path : String) (bytes : ByteArray) (s : S.State) :
    S.run (writeFile path bytes) s =
      match S.run (Files.create path) s with
      | (.error f, s₁) => (.error f, s₁)
      | (.ok handle, s₁) => S.run (Files.fill handle bytes) s₁ := by
  rw [writeFile, hS.run_bind]
  obtain ⟨f | handle, s₁⟩ := S.run (Files.create path) s
  · exact hS.run_pure _ s₁
  · rfl

/-- **A file that is written holds the bytes, and no other file changes.** -/
theorem Lawful.puts_of_writeFile (hS : S.Lawful) (hp : S.Plain s path)
    (h : S.run (writeFile path bytes) s = (.ok (), s')) : ∃ file, S.Puts s file path bytes s' := by
  rw [hS.run_writeFile] at h
  rcases hopen : S.run (Files.create path) s with ⟨f | handle, s₁⟩
  · rw [hopen] at h
    cases h
  · rw [hopen] at h
    obtain ⟨file, hfile⟩ := hS.create_ok hp hopen
    exact ⟨file, hfile.trans (hS.fill_ok hp hopen hfile h)⟩

/-- **A file that cannot be written**: nothing changes, unless it could be opened. -/
theorem Lawful.eq_or_breaksOff_of_writeFile {f : FileFault} (hS : S.Lawful) (hp : S.Plain s path)
    (h : S.run (writeFile path bytes) s = (.error f, s')) :
    s' = s ∨ S.BreaksOff s path bytes s' := by
  rw [hS.run_writeFile] at h
  rcases hopen : S.run (Files.create path) s with ⟨f' | handle, s₁⟩
  · rw [hopen] at h
    cases h
    exact .inl (hS.create_error hp hopen)
  · rw [hopen] at h
    obtain ⟨file, hfile⟩ := hS.create_ok hp hopen
    obtain ⟨n, hleft⟩ := hS.fill_error hp hopen hfile h
    exact .inr ⟨⟨handle, s₁, f, hopen, h⟩, file, n, hfile.trans hleft⟩

end FileSystem

end Shader.CommandLine
