import ScriptTyping.Cause
import ScriptTyping.Run.Disk
import ScriptTyping.Script

/-!
# Surroundings of a run

A `Host` is what a run needs of the world: files to read and to write, programs to find, and a clock. A
disk is the host of which everything is known.
-/

namespace ScriptTyping

/-- Files, programs and a clock, in a monad that says what using them does. -/
structure Host (m : Type → Type) where
  read : String → m (Except Obstacle (List UInt8))
  write : String → List UInt8 → m (Except Obstacle Unit)
  program? : String → m (Option Program)
  /-- The path that a program is found at. -/
  pathOf : String → m String
  /-- What the clock says each time it is looked at. -/
  clock : m (Nat → String)

namespace Host

variable {m : Type → Type} [Monad m]

/-- The script in the bytes of a file. -/
def script (path : String) : Except Obstacle (List UInt8) → Except Cause Script
  | .error o => .error (.unreadable path o.reason)
  | .ok bytes =>
    match Text.decode bytes with
    | .ok content => .ok (.ofFile path content)
    | .error _ => .error (.unreadable path "stream did not contain valid UTF-8")

/-- Reads a script from a file. -/
def load (h : Host m) (path : String) : ExceptT Cause m Script := do
  ExceptT.mk (return script path (← h.read path))

/-- Finds the formatter of a choice. -/
def formatter (h : Host m) (f : FormatterChoice) : ExceptT Cause m Formatter := do
  ExceptT.mk (return (f.formatterOf? (← h.program? f.program)).mapError .formatter)

/-- Writes a text to a file. -/
def save (h : Host m) (path text : String) : ExceptT Cause m Unit := do
  ExceptT.mk (return (← h.write path (Text.encode text)).mapError fun o =>
    .unwritable path o.reason)

end Host

namespace Disk

/-- A disk and some programs as a host. A write that fails leaves the disk as it is. All programs lie in
one folder, and the clock stands still. -/
def host (programs : String → Option Program) : Host (StateM Disk) where
  read path := return (← get).read path
  write path content := do
    match (← get).write path content with
    | .ok d => set d; return .ok ()
    | .error o => return .error o
  program? name := return programs name
  pathOf name := return "/bin/" ++ name
  clock := return fun _ => "1970-01-01T00:00:00.000Z"

end Disk

end ScriptTyping
