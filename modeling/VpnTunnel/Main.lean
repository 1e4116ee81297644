import VpnTunnel.Cli.Run

/-!
# The program

Reads the files that the arguments name, runs, and prints.
-/

namespace VpnTunnel.Cli

/-- Reads a file, and puts a failure into the words of the domain. -/
def readFile (path : String) : IO (Except FileError ByteArray) := do
  try
    return .ok (← IO.FS.readBinFile path)
  catch e =>
    return .error <| match e with
      | .noFileOrDirectory _ _ _ => .notFound
      | .inappropriateType _ 20 _ => .notADirectory
      | .inappropriateType _ _ _ => .isADirectory
      | .invalidArgument _ 36 _ => .nameTooLong
      | _ => .other (toString e)

/-- A private key from the system's source of randomness. -/
def randomKey : IO PrivateKey := do
  let bytes := (← IO.getRandomBytes 32).toList
  if h : bytes.length = 32 then return ⟨bytes, h⟩
  else throw (IO.userError "no randomness")

/-- What stands on standard error for a failure. -/
def Failure.text (f : Failure) : String :=
  let causes := match f.causes with
    | [] => ""
    | [cause] => "\n\nCaused by:\n    " ++ cause
    | causes => "\n\nCaused by:" ++ String.join
        (causes.mapIdx fun i cause => "\n    " ++ toString i ++ ": " ++ cause)
  "Error: " ++ f.message ++ causes

end VpnTunnel.Cli

open VpnTunnel Cli in
def main (args : List String) : IO UInt32 := do
  let mut contents : List (String × Except FileError ByteArray) := []
  for path in filesOf args do
    contents := (path, ← readFile path) :: contents
  let files : FileReader := fun path => (contents.lookup path).getD (.error .notFound)
  let report := run ⟨files, ← randomKey⟩ args
  IO.print report.stdout
  if let some failure := report.failure then
    IO.eprintln failure.text
  return report.exit.toUInt32
