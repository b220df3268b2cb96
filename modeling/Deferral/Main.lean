import Deferral.Service.Session

/-!
The program. It reads its configuration file and then, line by line, command lines of clients from
standard input; it prints what each of them prints. When the input ends it shuts down and prints its
log.
-/

namespace Deferral.Main

open Config (FileError)
open Service (Ended Environment Session)

def readFile (path : Watch.PathName) : IO (Except FileError ByteArray) := do
  try
    return .ok (← IO.FS.readBinFile path.text)
  catch
    | .noSuchThing .. | .noFileOrDirectory .. => return .error .notFound
    | .inappropriateType _ code _ =>
      return .error (if code = 21 then .isDirectory else .notDirectory)
    | .permissionDenied _ code _ => return .error (.system code.toNat "PermissionDenied" "Permission denied")
    | _ => return .error .notDirectory

def words (line : String) : List String :=
  ((Text.splitOn ' ' (line.toList.filter fun c => c ≠ '\n' && c ≠ '\r')).filter (!·.isEmpty)).map String.ofList

def print (exit : Client.Exit) : IO Unit := do
  IO.print exit.output
  IO.eprint exit.errors

def report (ended : Ended) : IO UInt32 := do
  for line in ended.log do
    IO.println line
  print ended.exit
  return UInt32.ofNat ended.exit.code

partial def serve (input : IO.FS.Stream) (session : Session) : IO Session := do
  let line ← input.getLine
  if line.isEmpty then return session
  match words line with
  | [] => serve input session
  | arguments =>
    let (session, exit) := session.runClient (["--url", "http://" ++ session.address.text] ++ arguments)
    print exit
    serve input session

def start (arguments : List String) : IO (Except Ended Session) := do
  match Service.configPath arguments with
  | .error stop => return .error { exit := .ofStop stop }
  | .ok path =>
    let environment : Environment := {
      arguments
      files := { base := ⟨"."⟩ }
      logFilter := ← IO.getEnv "RUST_LOG" }
    match path with
    | none => return Session.launch environment none {}
    | some path =>
      match Config.load (← readFile path) with
      | .error error => return .error { exit := Session.configFailure error }
      | .ok config => return Session.launch environment (some path) config

end Deferral.Main

def main (arguments : List String) : IO UInt32 := do
  match ← Deferral.Main.start arguments with
  | .error ended => Deferral.Main.report ended
  | .ok session =>
    let session ← Deferral.Main.serve (← IO.getStdin) session
    Deferral.Main.report (session.finish .terminate).1
