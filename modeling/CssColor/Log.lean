import CssColor.Record

/-! # Logs: records in a file

A `Log` is a disk, the place records go to once one is installed, and the slightest level that is
let through to it. The first file that can be opened is installed, and stays; the level is set to
that of the file behind it. A record passes the level of the log, then that of the file, and becomes
a line at the end of the file, which is created again if it was deleted. -/

namespace CssColor

/-! ### Files -/

/-- What there is at a path. -/
inductive Entry where
  /-- Nothing, and no directory to put it in. -/
  | unreachable
  | directory
  | absent
  | file (text : String)
deriving DecidableEq, Repr

/-- What there is at every path. -/
abbrev Disk := String → Entry

/-- Why no log could be installed. -/
inductive LogFault where
  | unreachable
  | directory
  | installed
deriving DecidableEq, Repr

/-- The wording of a cause. -/
def LogFault.message : LogFault → String
  | unreachable => "Log file error: No such file or directory (os error 2)"
  | directory => "Log file error: Is a directory (os error 21)"
  | installed =>
    "Logger error: attempted to set a logger after the logging system was already initialized"

namespace Disk

/-- The disk with something else at a path. -/
def update (d : Disk) (path : String) (e : Entry) : Disk := fun p => if p = path then e else d p

/-- The disk with a text added to the end of a file, which is created if it is absent. -/
def append (d : Disk) (path text : String) : Except LogFault Disk :=
  match d path with
  | .unreachable => .error .unreachable
  | .directory => .error .directory
  | .absent => .ok (d.update path (.file text))
  | .file old => .ok (d.update path (.file (old ++ text)))

/-- The disk without the file at a path. -/
def remove (d : Disk) (path : String) : Disk :=
  match d path with
  | .file _ => d.update path .absent
  | _ => d

end Disk

/-! ### Sinks -/

/-- The line of a record. -/
def Record.line (r : Record) : String :=
  "[" ++ r.level.name ++ "] " ++ r.source ++ ": " ++ r.message ++ "\n"

/-- A file for records, and the slightest level it takes. -/
structure Sink where
  path : String
  level : Level
deriving DecidableEq, Repr

namespace Sink

/-- Whether a level is grave enough. -/
def takes (s : Sink) (l : Level) : Bool := l.rank ≤ s.level.rank

/-- The disk after a record has come to a sink. A record that cannot be written is lost. -/
def write (s : Sink) (d : Disk) (r : Record) : Disk :=
  if s.takes r.level then
    match d.append s.path r.line with
    | .ok d => d
    | .error _ => d
  else d

end Sink

/-! ### Logs -/

/-- A disk, where records go, and the slightest level let through; without one, none is. -/
structure Log where
  disk : Disk
  sink : Option Sink := none
  maxLevel : Option Level := none

namespace Log

/-- The slightest level taken unless another is asked for. -/
def defaultLevel : Level := .debug

/-- **The log after an attempt to set the sink,** which succeeds once. -/
def setSink (l : Log) (s : Sink) : Except LogFault Unit × Log :=
  match l.sink with
  | some _ => (.error .installed, l)
  | none => (.ok (), { l with sink := some s })

/-- The log that lets records through up to a level. -/
def setMaxLevel (l : Log) (level : Level) : Log := { l with maxLevel := some level }

/-- **The log after an attempt to install a file,** and whether it was installed. The file is opened
first, then it becomes the sink, and then its level is let through. -/
def install (l : Log) (path : String) (level : Level) : Except LogFault Unit × Log :=
  match l.disk.append path "" with
  | .error f => (.error f, l)
  | .ok disk =>
    match setSink { l with disk } ⟨path, level⟩ with
    | (.error f, l) => (.error f, l)
    | (.ok (), l) => (.ok (), l.setMaxLevel level)

/-- Whether records of a level are let through to the sink. -/
def passes (l : Log) (level : Level) : Bool := l.maxLevel.any (level.rank ≤ ·.rank)

/-- Whether the sink takes records of a level. -/
def takes (l : Log) (level : Level) : Bool := l.sink.any (·.takes level)

/-- **The log after a record.** -/
def add (l : Log) (r : Record) : Log :=
  if l.passes r.level then
    match l.sink with
    | some s => { l with disk := s.write l.disk r }
    | none => l
  else l

/-- The log after some records. -/
def addAll (l : Log) (rs : List Record) : Log := rs.foldl add l

/-- The log after a file is deleted. -/
def remove (l : Log) (path : String) : Log := { l with disk := l.disk.remove path }

end Log

end CssColor
