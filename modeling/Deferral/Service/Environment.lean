import Deferral.Client.Command
import Deferral.Config.Load
import Deferral.Net.SocketAddress
import Deferral.Watch.Directory

/-!
What surrounds the program: its command line, the files that it sees and the addresses that it may
listen at.
-/

namespace Deferral.Service

open Config (FileError)
open Watch (PathName)

structure Files where
  base : PathName
  directory : Watch.Directory := {}

def Files.read (files : Files) (path : PathName) : Except FileError ByteArray :=
  match path.below? files.base with
  | none => .error .notFound
  | some [] => .error .isDirectory
  | some [_] => files.directory.read path
  | some (name :: _) =>
    match files.directory.get? name with
    | some (.file _) => .error .notDirectory
    | _ => .error .notFound

def Files.watch (files : Files) (path : PathName) : Watch.WatchedDirectory where
  watcher := ⟨path⟩
  directory := files.directory
  sees := path.directory.below? files.base = some []

structure Environment where
  arguments : List String
  files : Files
  /-- The filter that overrides the configured log level. -/
  logFilter : Option String := none
  addressInUse : Bool := false

inductive BindError where
  | inUse | notAvailable
  deriving DecidableEq, Repr

def BindError.dump : BindError → String
  | .inUse => Config.osErrorDump 98 "AddrInUse" "Address already in use"
  | .notAvailable => Config.osErrorDump 99 "AddrNotAvailable" "Cannot assign requested address"

def Environment.bind (environment : Environment) (address : Net.SocketAddress) : Except BindError Unit :=
  if environment.addressInUse then .error .inUse
  else if address.isLocal then .ok ()
  else .error .notAvailable

def configPath (arguments : List String) : Except CommandLine.Stop (Option PathName) := do
  let reading ← CommandLine.read
    { options := [{ long := "config", short := some 'c', kind := .path }], maxWords := 0 } arguments
  return (reading.value? "config").map PathName.mk

end Deferral.Service
