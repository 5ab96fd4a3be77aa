import TypeProse.Command.Run

/-!
# The program

The outer layer of the command: it reads what the command may need, runs it and
writes what it leaves behind.
-/

namespace TypeProse.Command

/-- Everything that is left on a stream. -/
partial def readAll (stream : IO.FS.Stream) (before : String) : IO String := do
  let line ← stream.getLine
  if line.isEmpty then return before else readAll stream (before ++ line)

/-- The environment that a request needs: the file that it names, or standard input if its
lines are to be described. -/
def environmentFor (request : Request) : IO Environment := do
  match request with
  | .describe settings =>
      if settings.input = "-" then
        let content ← if settings.texts.isEmpty then readAll (← IO.getStdin) "" else pure ""
        return ⟨content, fun _ => none⟩
      else
        let content ← try some <$> IO.FS.readFile settings.input catch _ => pure none
        return ⟨"", fun _ => content⟩
  | _ => return ⟨"", fun _ => none⟩

end TypeProse.Command

open TypeProse.Command in
def main (arguments : List String) : IO UInt32 := do
  let environment ← match Request.ofArguments arguments with
    | .ok request => environmentFor request
    | .error _ => pure ⟨"", fun _ => none⟩
  let output := run arguments environment
  (← IO.getStdout).putStr output.stdout
  (← IO.getStderr).putStr output.stderr
  return output.exitCode.toUInt32
