import Mathlib.Data.List.Basic
import Shader.Proofs.Answers
import Shader.Proofs.FileSystem

/-!
# A directory is a system with files

The programs that work on a directory as a value obey the laws of a system, as far as their paths keep
off the devices.

* `lookUp?_put_self`, `lookUp?_put_of_ne`: what is where after a file was put somewhere;
  **`follow_put`**: a path leads where it led before, as folders do not give way to files;
* `target_eq_ok`: the place of a file to be written is where its path leads;
* `Directory.Plain`: a path that meets no device; `Directory.system`: the system;
  **`lawful_system`**: it obeys the laws.
-/

namespace Shader

namespace CommandLine.Directory

variable {d d' : Directory} {p q r : Place} {path : String} {bytes : ByteArray}

/-! ## Places -/

/-- The file is where it was put. -/
theorem lookUp?_put_self (d : Directory) (p : Place) (bytes : ByteArray) :
    (d.put p bytes).lookUp? p = some (.file bytes) := by
  simp [lookUp?, put]

theorem lookup_filter_ne (d : Directory) (h : q ≠ p) :
    (d.filter fun e => e.1 ≠ p).lookup q = d.lookup q := by
  induction d with
  | nil => rfl
  | cons e d ih =>
    obtain ⟨place, entry⟩ := e
    by_cases he : place = p
    · subst he
      rw [List.filter_cons_of_neg (by simp), ih, List.lookup_cons, beq_false_of_ne h]
    · rw [List.filter_cons_of_pos (by simpa using he), List.lookup_cons, List.lookup_cons, ih]

/-- **What is elsewhere stays**, whatever file is put somewhere. -/
theorem lookUp?_put_of_ne (d : Directory) (bytes : ByteArray) (h : q ≠ p) :
    (d.put p bytes).lookUp? q = d.lookUp? q := by
  have hbeq : (q == p) = false := beq_false_of_ne h
  simp only [lookUp?, put, List.lookup_cons, hbeq, lookup_filter_ne d h]

theorem checkFolder_eq_ok_iff : d.checkFolder p = .ok () ↔ d.lookUp? p = some .folder := by
  unfold checkFolder
  split <;> simp_all

/-! ## Paths -/

/-- A path goes on from a folder by a name that is not too long. -/
theorem follow_cons_eq_ok_iff {name : String} {rest : List String} :
    d.follow p (name :: rest) = .ok q ↔ d.lookUp? p = some .folder ∧
      name.utf8ByteSize ≤ longestName ∧ d.follow (p.step name) rest = .ok q := by
  rw [← checkFolder_eq_ok_iff, follow, bind_eq_ok_iff]
  constructor
  · rintro ⟨_, hfolder, h⟩
    split at h
    · obtain ⟨_, hthrow, -⟩ := bind_eq_ok_iff.1 h
      exact absurd hthrow (throw_ne_ok _ _)
    · next hshort => exact ⟨hfolder, Nat.le_of_not_lt hshort, h⟩
  · rintro ⟨hfolder, hshort, h⟩
    exact ⟨(), hfolder, by rwa [if_neg (Nat.not_lt.2 hshort)]⟩

theorem follow_append_eq_ok {names rest : List String} (h : d.follow p names = .ok q)
    (hrest : d.follow q rest = .ok r) : d.follow p (names ++ rest) = .ok r := by
  induction names generalizing p with
  | nil =>
    cases h
    exact hrest
  | cons name names ih =>
    obtain ⟨hfolder, hshort, h⟩ := follow_cons_eq_ok_iff.1 h
    exact follow_cons_eq_ok_iff.2 ⟨hfolder, hshort, ih h⟩

/-- **A path leads where it led before**: it leads through folders, and the file does not replace a
folder. -/
theorem follow_put (hp : d.lookUp? p ≠ some .folder) (bytes : ByteArray) {names : List String}
    (h : d.follow q names = .ok r) : (d.put p bytes).follow q names = .ok r := by
  induction names generalizing q with
  | nil => exact h
  | cons name names ih =>
    obtain ⟨hfolder, hshort, h⟩ := follow_cons_eq_ok_iff.1 h
    have hne : q ≠ p := by
      rintro rfl
      exact hp hfolder
    exact follow_cons_eq_ok_iff.2 ⟨(lookUp?_put_of_ne d bytes hne).trans hfolder, hshort, ih h⟩

/-! ## Writing -/

/-- The place is the one that the path leads to, and no folder is there. -/
theorem target_eq_ok (h : d.target path = .ok p) :
    d.follow (startOf path) (namesOf path) = .ok p ∧ d.lookUp? p ≠ some .folder := by
  simp only [target, bind_eq_ok_iff] at h
  obtain ⟨⟨⟩, -, folder, hfolder, -, -, h⟩ := h
  split at h
  case h_4 name _ _ hlast =>
    have hnames : namesOf path = (namesOf path).dropLast ++ [name] :=
      (List.dropLast_append_getLast? name (Option.mem_def.2 hlast)).symm
    split at h
    case isTrue =>
      obtain ⟨_, hthrow, -⟩ := bind_eq_ok_iff.1 h
      exact absurd hthrow (throw_ne_ok _ _)
    case isFalse =>
      obtain ⟨place, hplace, h⟩ := bind_eq_ok_iff.1 h
      split at h
      · exact absurd h (throw_ne_ok _ _)
      · exact absurd h (throw_ne_ok _ _)
      · next hfolder' _ =>
        cases h
        refine ⟨?_, hfolder'⟩
        rw [hnames]
        exact follow_append_eq_ok hfolder hplace
  all_goals exact absurd h (throw_ne_ok _ _)

theorem fill_of_ne_sink (h : d.lookUp? p ≠ some .sink) : d.fill p bytes = d.put p bytes := by
  unfold fill
  split
  · contradiction
  · rfl

/-! ## The system -/

/-- The place a path leads to, if there are folders on the way. -/
def leads? (d : Directory) (path : String) : Option Place :=
  (d.follow (startOf path) (namesOf path)).toOption

/-- The bytes of the file at a place. -/
def content? (d : Directory) (p : Place) : Option ByteArray :=
  match d.lookUp? p with
  | some (.file bytes) => some bytes
  | _ => none

/-- A path leads to a file, a folder or nothing: it meets no device, on its way or at its end. -/
structure Plain (d : Directory) (path : String) : Prop where
  way : d.follow (startOf path) (namesOf path) ≠ .error .denied
  last : ∀ p, d.leads? path = some p → d.lookUp? p ≠ some .sink ∧ d.lookUp? p ≠ some .device

/-- Programs on a directory as a value: its files are known by their places. -/
def system : FileSystem M where
  State := Directory
  File := Place
  run x d := x.run d
  leads? := leads?
  content? := content?
  Plain := Plain

theorem leads?_eq_some_iff :
    d.leads? path = some p ↔ d.follow (startOf path) (namesOf path) = .ok p := by
  unfold leads?
  cases d.follow (startOf path) (namesOf path) <;> simp [Except.toOption]

theorem plain_of_leads (hlead : d.leads? path = some p) (hsink : d.lookUp? p ≠ some .sink)
    (hdevice : d.lookUp? p ≠ some .device) : d.Plain path where
  way := by simp [leads?_eq_some_iff.1 hlead]
  last q hq := by
    obtain rfl := Option.some.inj (hlead.symm.trans hq)
    exact ⟨hsink, hdevice⟩

/-- A file that was put where its path leads to is the only one that has changed. -/
theorem puts_put (hlead : d.leads? path = some p) (hp : d.lookUp? p ≠ some .folder)
    (bytes : ByteArray) : system.Puts d p path bytes (d.put p bytes) where
  leads := leads?_eq_some_iff.2 (follow_put hp bytes (leads?_eq_some_iff.1 hlead))
  content := by simp [system, content?, lookUp?_put_self]
  others other hne := by simp [system, content?, lookUp?_put_of_ne d bytes hne]

theorem run_create (d : Directory) (path : String) :
    system.run (Files.create path : M _) d =
      match d.target path with
      | .error f => (.error f, d)
      | .ok p => (.ok p, d.fill p .empty) := by
  simp only [system, Files.create, StateT.run_bind, StateT.run_get, pure_bind]
  cases d.target path <;> rfl

theorem eq_of_run_create {f : FileFault}
    (h : system.run (Files.create path : M _) d = (.error f, d')) : d' = d := by
  rw [run_create] at h
  cases htarget : d.target path with
  | error f' =>
    rw [htarget] at h
    cases h
    rfl
  | ok p =>
    rw [htarget] at h
    cases h

/-- A file that was opened is at the place that the path leads to. -/
theorem put_of_run_create {handle : Files.Handle M} (hp : system.Plain d path)
    (h : system.run (Files.create path : M _) d = (.ok handle, d')) :
    d.leads? path = some handle ∧ d.lookUp? handle ≠ some .folder ∧ d' = d.put handle .empty := by
  rw [run_create] at h
  cases htarget : d.target path with
  | error f =>
    rw [htarget] at h
    cases h
  | ok p =>
    rw [htarget] at h
    cases h
    obtain ⟨hfollow, hfolder⟩ := target_eq_ok htarget
    have hlead := leads?_eq_some_iff.2 hfollow
    exact ⟨hlead, hfolder, fill_of_ne_sink (hp.last _ hlead).1⟩

theorem holds_of_read (hp : system.Plain d path) (h : d.read path = .ok bytes) :
    system.Holds d path bytes := by
  simp only [read, bind_eq_ok_iff] at h
  obtain ⟨⟨⟩, -, p, hfollow, h⟩ := h
  have hlead := leads?_eq_some_iff.2 hfollow
  split at h
  · exact absurd h (throw_ne_ok _ _)
  · exact absurd h (throw_ne_ok _ _)
  · exact absurd h (throw_ne_ok _ _)
  · next bytes' hentry =>
    split at h
    · exact absurd h (throw_ne_ok _ _)
    · cases h
      exact ⟨p, hlead, by simp [system, content?, hentry]⟩
  · next hentry => exact absurd hentry (hp.last p hlead).1

/-- **A directory obeys the laws of a system.** -/
theorem lawful_system : system.Lawful where
  run_pure _ _ := rfl
  run_bind _ _ _ := rfl
  read_keeps _ := rfl
  read_holds hp h := holds_of_read hp h
  create_error _ h := eq_of_run_create h
  create_ok hp h := by
    obtain ⟨hlead, hfolder, rfl⟩ := put_of_run_create hp h
    exact ⟨_, puts_put hlead hfolder _⟩
  fill_ok {d d₁ d' path handle p bytes} hp hopen hfile h := by
    obtain ⟨hlead, hfolder, rfl⟩ := put_of_run_create hp hopen
    -- the handle is the place of the file
    obtain rfl : handle = p :=
      Option.some.inj ((puts_put hlead hfolder .empty).leads.symm.trans hfile.leads)
    have hentry := lookUp?_put_self d handle .empty
    obtain rfl : (d.put handle .empty).put handle bytes = d' := by
      rw [← fill_of_ne_sink (by simp [hentry])]
      exact congrArg Prod.snd h
    exact puts_put hfile.leads (by simp [hentry]) bytes
  fill_error _ _ _ h := by cases h

/-- A file that has a place can be written. -/
theorem canWrite_of_target (h : d.target path = .ok p) (bytes : ByteArray) :
    system.CanWrite d path bytes := by
  have hrun := lawful_system.run_writeFile path bytes d
  rw [run_create, h] at hrun
  exact congrArg Prod.fst hrun

end CommandLine.Directory

end Shader
