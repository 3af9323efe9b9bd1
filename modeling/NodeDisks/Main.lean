import NodeDisks.CommandLine
import NodeDisks.Daemon.Turn
import NodeDisks.Host.FileTree

/-!
The program: it reads the command line, sets up a job, and takes turn after turn.

A node is seen through a file tree that starts empty, and so has no commands either; this program runs
anywhere and touches no device.
-/

namespace NodeDisks

/-- The text of a file. -/
def readText (p : Path) : IO (Except IoError String) := do
  try
    return .ok (← IO.FS.readFile p.text)
  catch
    | .noFileOrDirectory .. => return .error FileTree.missing
    | .permissionDenied .. => return .error FileTree.notPermitted
    | e => return .error ⟨.other, toString e⟩

/-- Writes a log line, as an object or as its level and message. -/
def writeLine (asJson : Bool) (l : LogLine) : IO Unit :=
  if asJson then
    IO.println (Json.object [("level", .text l.level.name), ("fields", l.toJson)]).compact
  else IO.println (l.level.name ++ " " ++ l.message)

/-- Takes turns until one fails for good, on a node whose commands answer as `run` says. -/
partial def takeTurns (run : Command → Except IoError CommandOutput) (o : CommandLine.Options)
    (job : Daemon.Job) (retryDelay : Duration) (m : Daemon.Job.Memory) : IO UInt32 := do
  let now ← IO.monoNanosNow
  let h := FileTree.empty.host run (fun _ => .ok ()) now
  let turn := job.turn o.config retryDelay m h
  (turn.lines.filter o.logs).forM (writeLine o.logJson)
  match turn.plan with
  | .fail e =>
    IO.eprintln (Daemon.Failure.loopFailed e).report
    return 1
  | .wait time retryDelay =>
    IO.sleep (UInt32.ofNat (time / 1000000))
    takeTurns run o job retryDelay turn.memory

end NodeDisks

open NodeDisks

def main (args : List String) : IO UInt32 := do
  let set ← CommandLine.all.filterMapM fun o => do
    return (← IO.getEnv o.variableName).map fun value => (o.variableName, value)
  let env (name : String) := set.lookup name
  match CommandLine.parse env args with
  | .error e =>
    IO.eprintln e.report
    return 2
  | .ok (.help long) =>
    (CommandLine.help long env).forM fun line => IO.println line
    return 0
  | .ok .version =>
    IO.println CommandLine.versionText
    return 0
  | .ok (.run o) =>
    let c := o.config
    let text ← readText (c.volumeSetFile.getD ⟨""⟩)
    match Daemon.start c o.nodeLabels (fun _ => text) with
    | .error f =>
      IO.eprintln f.report
      return 1
    | .ok job => takeTurns (fun _ => .error FileTree.missing) o job Backoff.standard.initial {}
