import DriveHealth.CommandLine.Run
/-!
The program: it reads the files that its arguments name and prints what the library makes of them.
-/

open DriveHealth

def textOfString (s : String) : Text := textOfBytes s.toUTF8.toList

def readNode (path : Text) : IO (Except OpenError Node) := do
  match String.fromUTF8? (bytesOfText path).toByteArray with
  | none => return .error .missing
  | some name =>
    try
      let bytes ← IO.FS.readBinFile name
      return .ok (.file (textOfBytes bytes.toList))
    catch
      | .permissionDenied .. => return .error .denied
      | .inappropriateType _ code _ =>
        return if code = 21 then .ok .directory else .error .notDirectory
      | .illegalOperation .. | .resourceBusy .. => return .ok .directory
      | _ => return .error .missing

def main (arguments : List String) : IO UInt32 := do
  let request := CommandLine.Request.ofArguments (arguments.map textOfString)
  let nodes ← request.paths.mapM fun path => return (path, ← readNode path)
  let output := request.output fun path => (nodes.lookup path).getD (.error .missing)
  (← IO.getStdout).write (bytesOfText output.report).toByteArray
  (← IO.getStderr).write (bytesOfText output.log).toByteArray
  return output.status.code
