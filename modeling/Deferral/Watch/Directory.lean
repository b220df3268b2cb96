import Deferral.Watch.Watcher

/-!
A directory under watch: what people do to its files, and what changes the watcher is told of.
-/

namespace Deferral.Watch

open Config (FileError)

inductive Entry where
  | file (content : String)
  | directory
  deriving DecidableEq, Repr

structure Directory where
  /-- One entry per name. -/
  entries : List (String × Entry) := []
  deriving DecidableEq, Repr

namespace Directory

def get? (d : Directory) (name : String) : Option Entry := d.entries.lookup name

def remove (d : Directory) (name : String) : Directory := ⟨d.entries.filter (·.1 != name)⟩

def put (d : Directory) (name : String) (entry : Entry) : Directory :=
  ⟨(name, entry) :: (d.remove name).entries⟩

def read (d : Directory) (path : PathName) : Except FileError ByteArray :=
  match path.fileName?.bind d.get? with
  | none => .error .notFound
  | some .directory => .error .isDirectory
  | some (.file content) =>
    if path.namesDirectory then .error .notDirectory else .ok content.toUTF8

end Directory

inductive FileAction where
  /-- Writes another file and renames it over this one. -/
  | replace (name content : String)
  | moveIn (name content : String)
  /-- Gives a file from another directory a name here. -/
  | link (name content : String)
  | write (name content : String)
  | rename (name target : String)
  | moveOut (name : String)
  | changeMode (name : String)
  | read (name : String)
  | remove (name : String)
  | makeDirectory (name : String)
  | removeDirectory (name : String)
  deriving DecidableEq, Repr

namespace FileAction

/-- The name of the file that `replace` writes before it renames it. -/
def swapName : String := "swap.tmp"

private def change (kind : ChangeKind) (names : List String) : Change := ⟨kind, names.map PathName.mk⟩

/-- A renamed is told three times: by the old name, by the new one and by both. -/
private def renamed (name target : String) : List Change :=
  [change (.modify .name) [name], change (.modify .name) [target], change (.modify .name) [name, target]]

def perform (d : Directory) : FileAction → Directory × List Change
  | .replace name content =>
    ((d.remove swapName).put name (.file content),
      [change .create [swapName], change (.modify .content) [swapName], change .access [swapName]] ++
        renamed swapName name)
  | .moveIn name content => (d.put name (.file content), [change (.modify .name) [name]])
  | .link name content => (d.put name (.file content), [change .create [name]])
  | .write name content =>
    let first := match d.get? name with
      | none => ChangeKind.create
      | some _ => .modify .content
    (d.put name (.file content), [change first [name], change (.modify .content) [name], change .access [name]])
  | .rename name target =>
    match d.get? name with
    | none => (d, [])
    | some entry => ((d.remove name).put target entry, renamed name target)
  | .moveOut name => (d.remove name, [change (.modify .name) [name]])
  | .changeMode name => (d, [change (.modify .metadata) [name]])
  | .read name => (d, [change .access [name]])
  | .remove name => (d.remove name, [change .remove [name]])
  | .makeDirectory name => (d.put name .directory, [change .create [name]])
  | .removeDirectory name => (d.remove name, [change .remove [name]])

end FileAction

structure WatchedDirectory where
  watcher : Watcher
  directory : Directory
  sees : Bool

namespace WatchedDirectory

def start? (path : PathName) (directory : Directory) : Option WatchedDirectory :=
  if path.directory.isUpward then
    some { watcher := ⟨path⟩, directory, sees := path.directory.isHere }
  else none

/-- One action and the last reload that it causes; reloads that follow each other see the same file. -/
def step (w : WatchedDirectory) (action : FileAction) : WatchedDirectory × Option Reload :=
  let (directory, changes) := action.perform w.directory
  let seen := if w.sees then changes else []
  ({ w with directory },
    (seen.filterMap fun change => w.watcher.handle change (directory.read w.watcher.path)).getLast?)

def run (w : WatchedDirectory) : List FileAction → List (Option Reload)
  | [] => []
  | action :: rest =>
    let (w, reload) := w.step action
    reload :: w.run rest

end WatchedDirectory
end Deferral.Watch
