import ScriptTyping.Text.Bytes

/-!
# Disks

A disk holds files and folders. A path is followed from the folder it begins in, part by part, and
every part but the last has to lead to a folder. `Disk.read` and `Disk.write` are the two things
done to a disk; `get?_write` says that writing changes the one file it writes.
-/

namespace ScriptTyping

/-- What keeps a file from being read or written. -/
inductive Obstacle where
  | absent
  | isFolder
  | notFolder
  | nameTooLong
  | nulInPath
  /-- Anything else, in the words of the system. -/
  | other (reason : String)
  deriving DecidableEq, Repr

namespace Obstacle

/-- The reason that is given for an obstacle. -/
def reason : Obstacle → String
  | absent => "No such file or directory (os error 2)"
  | isFolder => "Is a directory (os error 21)"
  | notFolder => "Not a directory (os error 20)"
  | nameTooLong => "File name too long (os error 36)"
  | nulInPath => "file name contained an unexpected NUL byte"
  | other reason => reason

end Obstacle

/-- What a disk holds in one place. -/
inductive Entry where
  | file (content : List UInt8)
  | folder
  deriving DecidableEq

/-- The names of the folders that lead to a place, and its own. -/
abbrev Place := List String

/-- A disk, and the place where relative paths begin. -/
structure Disk where
  entries : List (Place × Entry)
  home : Place

namespace Disk

/-- What there is in a place. The outermost folder is always there. -/
def get? (d : Disk) (p : Place) : Option Entry :=
  if p = [] then some .folder else (d.entries.find? (·.1 == p)).map (·.2)

/-- Puts an entry in a place. -/
def put (d : Disk) (p : Place) (e : Entry) : Disk :=
  { d with entries := (p, e) :: d.entries.filter (·.1 != p) }

/-- Refuses a place that is no folder. -/
def requireFolder (d : Disk) (p : Place) : Except Obstacle Unit :=
  match d.get? p with
  | some .folder => .ok ()
  | some (.file _) => .error .notFolder
  | none => .error .absent

/-- The length of the longest name in bytes. -/
def maxName : Nat := 255

/-- The place that one part of a path leads to. -/
def step (here : Place) (part : String) : Except Obstacle Place :=
  if part = "." then .ok here
  else if part = ".." then .ok here.dropLast
  else if maxName < Text.byteLength part.toList then .error .nameTooLong
  else .ok (here ++ [part])

/-- The place that the parts of a path lead to. -/
def follow (d : Disk) (here : Place) : List String → Except Obstacle Place
  | [] => .ok here
  | part :: parts => do
    d.requireFolder here
    d.follow (← step here part) parts

/-- The parts of a path. -/
def partsOf (path : String) : List String :=
  ((path.toList.splitOn '/').filter (· ≠ [])).map String.ofList

/-- Whether a path can only name a folder. -/
def namesFolder (path : String) : Bool :=
  path.toList.getLast? == some '/'

/-- The place that a path leads to. -/
def locate (d : Disk) (path : String) : Except Obstacle Place :=
  if path.toList.contains '\x00' then .error .nulInPath
  else if path = "" then .error .absent
  else d.follow (if path.toList.head? == some '/' then [] else d.home) (partsOf path)

/-- The bytes of a file. -/
def read (d : Disk) (path : String) : Except Obstacle (List UInt8) := do
  match d.get? (← d.locate path) with
  | some (.file content) => if namesFolder path then .error .notFolder else .ok content
  | some .folder => .error .isFolder
  | none => .error .absent

/-- Gives a file new bytes, and makes it where there is none. -/
def write (d : Disk) (path : String) (content : List UInt8) : Except Obstacle Disk := do
  let place ← d.locate path
  if d.get? place = some .folder ∨ namesFolder path then .error .isFolder
  else .ok (d.put place (.file content))

theorem get?_put {d : Disk} {p : Place} (h : p ≠ []) (e : Entry) (q : Place) :
    (d.put p e).get? q = if q = p then some e else d.get? q := by
  by_cases same : q = p
  · subst same
    simp [get?, put, h]
  · by_cases root : q = []
    · simp [get?, root, Ne.symm h]
    · have rest : (d.entries.filter (·.1 != p)).find? (·.1 == q) = d.entries.find? (·.1 == q) := by
        rw [List.find?_filter]
        congr 1
        funext x
        by_cases hx : x.1 = q <;> simp [hx, same]
      simp only [get?, put, root, same, if_false, List.find?_cons]
      rw [beq_false_of_ne (Ne.symm same), rest]

/-- Writing changes no other place than the one the path leads to. -/
theorem get?_write {d d' : Disk} {path : String} {content : List UInt8}
    (h : d.write path content = .ok d') :
    ∃ p, d.locate path = .ok p ∧
      ∀ q, d'.get? q = if q = p then some (.file content) else d.get? q := by
  unfold write at h
  cases hp : d.locate path with
  | error o => simp [hp, bind, Except.bind] at h
  | ok p =>
    simp only [hp, bind, Except.bind] at h
    split at h
    · cases h
    · rename_i free
      cases h
      have inside : p ≠ [] := fun e => free (Or.inl (by simp [get?, e]))
      exact ⟨p, rfl, get?_put inside _⟩

end Disk

end ScriptTyping
