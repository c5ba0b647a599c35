import Shader.CommandLine.Run

/-!
# The program

The outer layer: arguments and files of the system, and the two outputs.
-/

namespace Shader.CommandLine

/-- The fault of an error of the system. -/
def FileFault.ofError : IO.Error → FileFault
  | .noFileOrDirectory _ _ _ => .missing
  | .inappropriateType _ code words =>
    if code = 21 then .isFolder
    else if code = 20 then .notFolder
    else .system words code.toNat
  | .invalidArgument _ code words =>
    if code = 36 then .nameTooLong else .system words code.toNat
  | .permissionDenied _ code _ => .system "Permission denied" code.toNat
  | e => .system (toString e) 0

instance : Files IO where
  Handle := IO.FS.Handle
  read path := do
    try return .ok (← IO.FS.readBinFile path)
    catch e => return .error (.ofError e)
  create path := do
    try return .ok (← IO.FS.Handle.mk path .write)
    catch e => return .error (.ofError e)
  fill h bytes := do
    try
      h.write bytes
      h.flush
      return .ok ()
    catch e => return .error (.ofError e)

end Shader.CommandLine

open Shader.CommandLine in
/-- Answer the arguments: show the report and hand its code to the system. -/
def main (args : List String) : IO UInt32 := do
  let set ← IO.getEnv "RUST_LOG"
  let report : Report ← (parse args).answer (set.map Level.ofSetting)
  for line in report.stderr do
    IO.eprintln line
  IO.print report.stdout
  return report.code.toUInt32
