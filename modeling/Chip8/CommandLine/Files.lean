import Chip8.CommandLine.Path

/-!
# Files

A program that reads and writes files is a function of how that is done. `Files m` is a way to read
and write files in a monad `m`, so the same program runs on the files of a computer and on a
`Directory`, which is a value: the files in it, by name.

A directory holds files only, and a path is walked from it step by step. The step that cannot be
taken decides what goes wrong: through a file, through a name that nothing has, or through a name
that is too long. Around the directory there are folders, up to the root, and nothing else: a path
may pass through them, and no file is there to be read or can be put there.

The main statement is that a file that was written at a path is read at that path.
-/

namespace Chip8

/-- A file system refused to do something: its number for the reason, and the reason. -/
structure FileError where
  code : Nat
  reason : String
  deriving DecidableEq, Repr

namespace FileError

/-- The text of an error. -/
def message (e : FileError) : String :=
  s!"{e.reason} (os error {e.code})"

/-- There is no file at the path. -/
def notFound : FileError := ⟨2, "No such file or directory"⟩

/-- The path leads through a file as if it were a directory. -/
def notADirectory : FileError := ⟨20, "Not a directory"⟩

/-- There is a directory at the path. -/
def isADirectory : FileError := ⟨21, "Is a directory"⟩

/-- The path, or a name in it, has more bytes than a path or a name can have. -/
def nameTooLong : FileError := ⟨36, "File name too long"⟩

end FileError

/-- A way to read and write whole files. -/
structure Files (m : Type → Type) where
  read : String → m (Except FileError (Array UInt8))
  write : String → Array UInt8 → m (Except FileError Unit)

/-- Files by name. -/
structure Directory where
  files : List (String × Array UInt8)
  deriving DecidableEq, Repr

namespace Directory

/-! ### Names -/

/-- The bytes of the file with a name. -/
def get? (d : Directory) (name : String) : Option (Array UInt8) :=
  d.files.lookup name

/-- Put bytes into the file with a name, which is new or loses what it held. -/
def put (d : Directory) (name : String) (bytes : Array UInt8) : Directory where
  files := (name, bytes) :: d.files.filter fun p ↦ p.1 != name

theorem lookup_filter_ne {name other : String} (h : other ≠ name)
    (l : List (String × Array UInt8)) :
    (l.filter fun p ↦ p.1 != name).lookup other = l.lookup other := by
  induction l with
  | nil => rfl
  | cons p l ih =>
    by_cases hn : p.1 = name
    · have hp : (other == p.1) = false := by simp [hn, h]
      rw [List.filter_cons_of_neg (by simp [hn]), ih, List.lookup_cons, hp]
    · rw [List.filter_cons_of_pos (by simp [hn]), List.lookup_cons, List.lookup_cons, ih]

@[simp] theorem get?_put_self (d : Directory) (name : String) (bytes : Array UInt8) :
    (d.put name bytes).get? name = some bytes := by
  simp [get?, put]

/-- **Writing a file leaves the others alone.** -/
theorem get?_put_of_ne (d : Directory) {name other : String} (bytes : Array UInt8)
    (h : other ≠ name) : (d.put name bytes).get? other = d.get? other := by
  have hne : (other == name) = false := by simp [h]
  rw [get?, put, List.lookup_cons, hne]
  exact lookup_filter_ne h d.files

/-! ### Paths -/

/-- Where a walk along a path stands. -/
inductive Folder where
  /-- In the directory itself. -/
  | here
  /-- In a folder around it. -/
  | around
  deriving DecidableEq, Repr

/-- What a path leads to. -/
inductive Place where
  /-- A folder. -/
  | folder
  /-- A name in a folder. -/
  | entry (folder : Folder) (name : String)
  deriving DecidableEq, Repr

/-- The file with a name in a folder. -/
def find (d : Directory) (folder : Folder) (name : String) :
    Except FileError (Array UInt8) :=
  if Path.maxNameSize < name.utf8ByteSize then .error .nameTooLong
  else
    match folder, d.get? name with
    | .here, some bytes => .ok bytes
    | _, _ => .error .notFound

/-- The folder after a step. A name leads to none: what has a name is a file. -/
def follow (d : Directory) (folder : Folder) (step : PathStep) : Except FileError Folder :=
  match step with
  | .stay => .ok folder
  | .up => .ok .around
  | .enter name =>
    match d.find folder name with
    | .ok _ => .error .notADirectory
    | .error e => .error e

/-- Walk from a folder. A name at the end is where the walk stops, whether something has that name
or not. -/
def walk (d : Directory) (folder : Folder) (steps : List PathStep) : Except FileError Place :=
  match steps with
  | [] => .ok .folder
  | [.enter name] => .ok (.entry folder name)
  | step :: rest =>
    match d.follow folder step with
    | .ok next => d.walk next rest
    | .error e => .error e

/-- What a path leads to. -/
def locate (d : Directory) (path : String) : Except FileError Place :=
  if Path.maxSize < path.utf8ByteSize then .error .nameTooLong
  else if path.isEmpty then .error .notFound
  else
    let p := Path.ofString path
    d.walk (if p.startsAtRoot then .around else .here) p.steps

/-- Read the file at a path. -/
def read (d : Directory) (path : String) : Except FileError (Array UInt8) :=
  match d.locate path with
  | .error e => .error e
  | .ok .folder => .error .isADirectory
  | .ok (.entry folder name) =>
    match d.find folder name with
    | .error e => .error e
    | .ok bytes => if (Path.ofString path).endsInSlash then .error .notADirectory else .ok bytes

/-- Write a file at a path: the directory afterwards. A path that ends in a slash asks for a folder
to be written, whatever is there. -/
def write (d : Directory) (path : String) (bytes : Array UInt8) : Except FileError Directory :=
  match d.locate path with
  | .error e => .error e
  | .ok .folder => .error .isADirectory
  | .ok (.entry folder name) =>
    if (Path.ofString path).endsInSlash then .error .isADirectory
    else if Path.maxNameSize < name.utf8ByteSize then .error .nameTooLong
    else
      match folder with
      | .here => .ok (d.put name bytes)
      | .around => .error .notFound

/-- Where a walk gets to hangs on the files only as far as it fails. -/
theorem walk_eq_of_ok {d : Directory} (other : Directory) {folder : Folder}
    {steps : List PathStep} {place : Place} (h : d.walk folder steps = .ok place) :
    other.walk folder steps = .ok place := by
  fun_induction walk d folder steps with
  | case1 => exact h
  | case2 => exact h
  | case3 folder step rest hstep next hfollow ih =>
    cases step with
    | enter name =>
      rw [follow] at hfollow
      split at hfollow <;> contradiction
    | _ =>
      cases hfollow
      exact ih h
  | case4 => contradiction

theorem locate_eq_of_ok {d : Directory} (other : Directory) {path : String} {place : Place}
    (h : d.locate path = .ok place) : other.locate path = .ok place := by
  unfold locate at h ⊢
  split
  · next hsize => rw [if_pos hsize] at h; contradiction
  · next hsize =>
    rw [if_neg hsize] at h
    split
    · next hempty => rw [if_pos hempty] at h; contradiction
    · next hempty =>
      rw [if_neg hempty] at h
      exact walk_eq_of_ok other h

/-- A file is written where the path leads, under a name that it can have. -/
theorem write_eq_ok_iff {d d' : Directory} {path : String} {bytes : Array UInt8} :
    d.write path bytes = .ok d' ↔ ∃ name, d.locate path = .ok (.entry .here name) ∧
      (Path.ofString path).endsInSlash = false ∧ name.utf8ByteSize ≤ Path.maxNameSize ∧
      d.put name bytes = d' := by
  constructor
  · intro h
    unfold write at h
    split at h
    · contradiction
    · contradiction
    · next folder name hlocate =>
      split at h
      · contradiction
      · next hslash =>
        split at h
        · contradiction
        · next hsize =>
          cases folder with
          | here => exact ⟨name, hlocate, by simpa using hslash, by omega, by simpa using h⟩
          | around => contradiction
  · rintro ⟨name, hlocate, hslash, hsize, rfl⟩
    simp [write, hlocate, hslash, Nat.not_lt.2 hsize]

/-- **What was written at a path is read there.** -/
theorem read_of_write {d d' : Directory} {path : String} {bytes : Array UInt8}
    (h : d.write path bytes = .ok d') : d'.read path = .ok bytes := by
  obtain ⟨name, hlocate, hslash, hsize, rfl⟩ := write_eq_ok_iff.1 h
  simp [read, locate_eq_of_ok (d.put name bytes) hlocate, find, Nat.not_lt.2 hsize, hslash]

/-- The files of a directory that is carried along. -/
def access : Files (StateM Directory) where
  read path := fun d ↦ (d.read path, d)
  write path bytes := fun d ↦
    match d.write path bytes with
    | .ok d' => (.ok (), d')
    | .error e => (.error e, d)

end Directory

end Chip8
