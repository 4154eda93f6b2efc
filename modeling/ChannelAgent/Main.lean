import ChannelAgent.Agent.Program
import ChannelAgent.Log.Line
import ChannelAgent.Wire.Endpoint

set_option autoImplicit false

namespace ChannelAgent.Console

open Agent

def faultText (e : IO.Error) : String :=
  match e with
  | .noFileOrDirectory .. => "No such file or directory (os error 2)"
  | .permissionDenied .. => "Permission denied (os error 13)"
  | .alreadyExists .. => "File exists (os error 17)"
  | .inappropriateType .. => "Is a directory (os error 21)"
  | e => toString e

def parentOf (path : String) : String :=
  String.ofList ((path.toList.reverse.dropWhile (· ≠ '/')).drop 1).reverse

def openLog (path : String) : IO (Except String IO.FS.Handle) := do
  try
    let parent := parentOf path
    unless parent.isEmpty do IO.FS.createDirAll parent
    return .ok (← IO.FS.Handle.mk path .append)
  catch e => return .error (faultText e)

def readFile (path : String) : IO Configuration.File := do
  try return .ok (← IO.FS.readBinFile path).toList
  catch e => return .error (faultText e)

/-- Waits for the end of the standard input and says how many milliseconds that took. -/
partial def waitForEnd : IO Nat := do
  let start ← IO.monoMsNow
  let input ← IO.getStdin
  let rec wait : IO Unit := do
    unless (← input.getLine).isEmpty do wait
  wait
  return (← IO.monoMsNow) - start

/-- Writes what the program does and returns its exit code. -/
def showAll (p : Performance) (file : Option IO.FS.Handle) : IO UInt32 := do
  let out ← IO.getStdout
  for (now, e) in p.kept do
    match file with
    | some h => h.putStrLn (e.record Agent.part now)
    | none => out.putStrLn (e.line Agent.part)
  out.putStr p.out
  for line in p.complaints do IO.eprintln line
  return p.exitCode.toUInt32

def run (arguments : List String) : IO UInt32 := do
  let world : World :=
    { os := "linux", programData := ← IO.getEnv "PROGRAMDATA", filter := ← IO.getEnv "RUST_LOG"
      obstacle := fun _ => none, file := fun _ => .error "", network := fun _ => none
      surroundings :=
        { reach := fun address _ => .refusing (.unreachable address
            ((addressFault? address).getD "Connection refused (os error 111)"))
          describe := fun f => f.category }
      shutdown := 0 }
  match CommandLine.parse arguments with
  | .error _ => showAll (Agent.run world arguments) none
  | .ok ⟨.version, _, _⟩ => showAll (Agent.run world arguments) none
  | .ok c =>
    let opened ← openLog (logPath world c)
    let obstacle : Option String :=
      match opened with
      | .ok _ => none
      | .error cause => some cause
    let world := { world with obstacle := fun _ => obstacle }
    match c.command with
    | .startDaemon config =>
      let file ← readFile (config.getD (Configuration.defaultPath world.os))
      let loads := (Configuration.read "" file).toOption.isSome
      let shutdown ← if loads then waitForEnd else pure 0
      showAll (Agent.run { world with file := fun _ => file, shutdown } arguments) opened.toOption
    | _ => showAll (Agent.run world arguments) opened.toOption

end ChannelAgent.Console

def main (arguments : List String) : IO UInt32 := ChannelAgent.Console.run arguments
