import CipherRules.Command.Run

/-!
# The program

Reads the arguments, the environment and the policy file, runs the command and writes what it
leaves behind.
-/

open CipherRules CipherRules.Command

/-- The content of a file, if it is a text. -/
def readPolicyFile (path : Text) : IO (Except FileFault Text) := do
  try
    let bytes ← IO.FS.readBinFile (String.ofList path)
    match String.fromUTF8? bytes with
    | some t => return .ok t.toList
    | none => return .error .notText
  catch e =>
    match e with
    | .noFileOrDirectory .. => return .error .notFound
    | e => return .error (.other (toString e).toList)

def main (args : List String) : IO UInt32 := do
  let arguments := args.map (·.toList)
  let logSetting ← IO.getEnv "RUST_LOG"
  let rule ← IO.getEnv (String.ofList Environment.defaultVariable)
  let file ← match (wish arguments).file? with
    | some path => readPolicyFile path
    | none => pure (.error .notFound)
  let surroundings : Surroundings :=
    ⟨(logSetting.getD "").toList, match rule with | some t => .text t.toList | none => .unset, file⟩
  let outcome := run surroundings arguments
  (← IO.getStderr).putStr (String.ofList (linesText outcome.settingComplaints))
  (← IO.getStderr).putStr (String.ofList (linesText outcome.log))
  (← IO.getStdout).putStr (String.ofList (linesText outcome.output))
  (← IO.getStderr).putStr (String.ofList outcome.complaint)
  return outcome.exitCode.toUInt32
