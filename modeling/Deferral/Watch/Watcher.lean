import Deferral.Config.Load
import Deferral.Config.PolicyTable
import Deferral.Log
import Deferral.Text.Quoted
import Deferral.Watch.PathName

/-!
The watcher of a configuration file. It is told of the changes in the file's directory, loads the
file when a change may have given it new content, and publishes what it loaded if that is sound.
-/

namespace Deferral.Watch

open Config (ConfigError FileError)

/-- What a modification changed, as far as the system tells. -/
inductive Modification where
  | unspecified | content | metadata | name | other
  deriving DecidableEq, Repr

inductive ChangeKind where
  | unspecified | access | create
  | modify (what : Modification)
  | remove | other
  deriving DecidableEq, Repr

structure Change where
  kind : ChangeKind
  paths : List PathName
  deriving DecidableEq, Repr

/-- What the system tells a watcher. -/
inductive Notice where
  | changed (change : Change)
  | failed (error : String)
  deriving DecidableEq, Repr

/-- A change after which a file may have new content. -/
def ChangeKind.matters : ChangeKind → Bool
  | .create => true
  | .modify .metadata => false
  | .modify _ => true
  | _ => false

structure Watcher where
  path : PathName
  deriving DecidableEq, Repr

inductive Reload where
  | published (config : ServiceConfig)
  | rejected (error : ConfigError)

namespace Watcher

def directory (w : Watcher) : PathName := w.path.directory

/-- The change is about the file; a path that names no file is about none. -/
def touches (w : Watcher) (change : Change) : Bool :=
  change.kind.matters &&
    change.paths.any fun p => p.fileName?.isSome && p.fileName? == w.path.fileName?

def reload (content : Except FileError ByteArray) : Reload :=
  match Config.load content with
  | .ok config => .published config
  | .error error => .rejected error

def handle (w : Watcher) (change : Change) (content : Except FileError ByteArray) : Option Reload :=
  if w.touches change then some (reload content) else none

end Watcher

namespace Reload

def routesText (config : ServiceConfig) : String :=
  Text.quotedList (PolicyTable.ofConfig config).routeNames

def published? : Reload → Option ServiceConfig
  | .published config => some config
  | .rejected _ => none

def log (w : Watcher) : Reload → LogEvent
  | .published config => .configReloaded (Text.quoted w.path.text) (routesText config)
  | .rejected error => .configRejected (Text.quoted w.path.text) error.message

end Reload

/-- What the watcher logs and what it publishes on a notice, given what a reader of the file finds then. -/
def Watcher.receive (w : Watcher) (notice : Notice) (content : Except FileError ByteArray) :
    List LogEvent × List ServiceConfig :=
  match notice with
  | .failed error => ([.watchFailed (Text.quoted w.path.text) error], [])
  | .changed change =>
    match w.handle change content with
    | none => ([], [])
    | some reload => ([reload.log w], reload.published?.toList)

end Deferral.Watch
