import DirectiveMarkdown.CommandLine.Run

/-! The program: commands on the real machine. -/
namespace DirectiveMarkdown

/-- The number of an error. Some calls of the system give it negated. -/
def errorNumber (code : UInt32) : Nat :=
  if code.toNat < 0x80000000 then code.toNat else 0x100000000 - code.toNat

def FileError.ofSystem : IO.Error → FileError
  | .noFileOrDirectory .. => .notFound
  | .inappropriateType _ code details =>
    if errorNumber code = 20 then .notDirectory
    else if errorNumber code = 21 then .isDirectory
    else .other details.toList
  | error => .other (toString error).toList

/-- The result of an action of the system, or the cause of its failure. -/
def tryAction {α : Type} (action : IO α) : IO (Except FileError α) := do
  try
    return .ok (← action)
  catch error =>
    return .error (.ofSystem error)

def ofBytes (bytes : ByteArray) : IO Text :=
  match String.fromUTF8? bytes with
  | some s => return s.toList
  | none => throw (IO.userError "stream did not contain valid UTF-8")

/-- All bytes up to the end of a stream. -/
partial def readAll (stream : IO.FS.Stream) (bytes : ByteArray) : IO ByteArray := do
  let more ← stream.read 65536
  if more.isEmpty then return bytes else readAll stream (bytes ++ more)

instance : MonadMachine IO where
  workingDirectory := do
    match ← tryAction IO.currentDir with
    | .ok directory => return some ((Path.ofText directory.toString.toList).filter (· ≠ []))
    | .error _ => return none
  pathExists path := do
    if path.toText = [] then return false
    else ((← IO.currentDir) / String.ofList path.toText).pathExists
  readFile path := tryAction do
    ofBytes (← IO.FS.readBinFile (String.ofList path.toText))
  writeFile path content := tryAction do
    IO.FS.writeFile (String.ofList path.toText) (String.ofList content)
  readInput := tryAction do ofBytes (← readAll (← IO.getStdin) ByteArray.empty)
  print s := tryAction do
    let output ← IO.getStdout
    output.putStr (String.ofList s)
    output.flush
  report s := do (← IO.getStderr).putStr (String.ofList s)

end DirectiveMarkdown

def main (words : List String) : IO UInt32 :=
  DirectiveMarkdown.CommandLine.run (words.map String.toList)
