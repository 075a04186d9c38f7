/-
Azsl.Main — the language server on standard input and output.

Everything the server decides is in `Session`. Here bytes are read and written, and the files
that a message may ask for are looked up before it is handed over.
-/
import Azsl.Server.Packet
import Azsl.Server.Session

namespace Azsl

/-- What is read from the editor next. -/
inductive Received where
  | nothing
  | malformed
  | message (message : Message)

/-- The length that a header gives; nothing at the end of the input. -/
def readHeader (input : IO.FS.Stream) : IO (Option (Option Nat)) := do
  let mut length := none
  repeat
    let line ← input.getLine
    if line.isEmpty then return none
    match Packet.headerLine? line with
    | some .blank => return some length
    | some (.length bytes) => length := some bytes
    | some .other => pure ()
    | none => return some none
  return none

/-- As many bytes as asked for, or fewer at the end of the input. -/
def readBytes (input : IO.FS.Stream) (count : Nat) : IO (List UInt8) := do
  let mut bytes := ByteArray.empty
  while bytes.size < count do
    let more ← input.read (count - bytes.size).toUSize
    if more.isEmpty then break
    bytes := bytes ++ more
  return bytes.toList

/-- The next message. -/
def readMessage (input : IO.FS.Stream) : IO Received := do
  match ← readHeader input with
  | none => return .nothing
  | some none => return .malformed
  | some (some count) =>
    match Packet.message? (← readBytes input count) with
    | some message => return .message message
    | none => return .malformed

/-- The content of a file on disk. -/
def readContent (path : String) : IO FileContent := do
  let bytes ← IO.FS.readBinFile path
  return match Utf8.decode? bytes.toList with
    | some chars => .text chars
    | none => .binary

/-- The place of a path, taken as it is written. -/
def placeOf (path : FilePath) : List String :=
  path.components.foldl
    (fun place component =>
      match component with
      | .name text => place ++ [text]
      | .parent => place.dropLast
      | .root | .current => place)
    []

/-- Add a file, or a directory with all that is below it. Nothing is added for what cannot be
read. -/
def addFromDisk (system : FileSystem) (path : FilePath) : IO FileSystem := do
  try
    let top ← IO.FS.realPath path.text
    let place := placeOf path
    if ← top.isDir then
      let mut found := system.makeDirectory place
      for entry in ← top.walkDir do
        let below := place ++ entry.components.drop top.components.length
        if ← entry.isDir then found := found.makeDirectory below
        else found := found.write below (← readContent entry.toString)
      return found
    else return system.write place (← readContent path.text)
  catch _ => return system

/-- The files and directories at some paths. -/
def snapshot (paths : List FilePath) : IO FileSystem :=
  paths.foldlM addFromDisk .empty

/-- Serve the editor until it leaves, and give the exit code. -/
def serve (input output : IO.FS.Stream) : IO UInt32 := do
  let mut session := Session.waiting
  while !session.isOver do
    match ← readMessage input with
    | .nothing => break
    | .malformed => return 1
    | .message message =>
      let system ← snapshot (session.sources message)
      let (next, replies) := session.receive system message
      for reply in replies do
        output.putStr (Packet.render reply)
      output.flush
      session := next
  return session.exitCode.toUInt32

end Azsl

def main : IO UInt32 := do
  Azsl.serve (← IO.getStdin) (← IO.getStdout)
