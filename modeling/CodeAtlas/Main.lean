import CodeAtlas.Command.Run
import CodeAtlas.Vector.Server
import CodeAtlas.Vector.Table.Document
import Std.Async.DNS
import Std.Async.TCP

/-!
# `CodeAtlas.Main`: the program

Reads the files of a project from the disk, asks the embedding server for the vectors that a
command needs, runs the command, and writes what it changed. What a command does is said in
`CodeAtlas.Command.Run`.
-/

set_option autoImplicit false

namespace CodeAtlas.Program

open Std.Async (DNS.getAddrInfo TCP.Socket.Client.mk Async.block)

/-! ### Files -/

/-- Reads an entry of a directory with everything below it. -/
partial def loadEntry (d : IO.FS.DirEntry) : IO Entry := do
  let about ← d.path.symlinkMetadata
  match about.type with
  | .dir =>
    try
      let found ← d.path.readDir
      let entries ← found.toList.mapM fun e => return (e.fileName.toList, ← loadEntry e)
      return .directory entries
    catch _ => return .closed
  | .file =>
    try return .file (.bytes (← IO.FS.readBinFile d.path))
    catch _ => return .file (.locked about.byteSize.toNat)
  | .symlink => return .link ⟨(← IO.FS.realPath d.path).toString⟩
  | .other => return .device

/-- The place of an absolute path without regard to links. -/
def placeOf (p : Path) : Place :=
  p.resolve.components.filterMap FileId.nameOf?

/-- The table that bytes write, or the bytes themselves. -/
def tableOfContent (c : Content) : Content :=
  match c.text.toOption.map VectorTable.read with
  | some (.ok table) => .table table
  | _ => c

/-- The bytes of a content, if it has any. -/
def bytesOf? : Content → Option ByteArray
  | .bytes data => some data
  | .table rows => some rows.write.toUTF8
  | .locked _ => none

/-- Reads the tree of a project; the directories on the way to it are in the tree, but nothing
else of what is in them. -/
def loadTree (root : Path) : IO FileTree := do
  let current ← IO.currentDir
  let here : Path := ⟨current.toString⟩
  let parts := (here.join root).components
  let mut t : FileTree := ⟨Entry.put (.directory []) (.directory []) (placeOf here), placeOf here⟩
  for n in List.range parts.length do
    let p := Path.ofComponents (parts.take (n + 1))
    if ← (current / p.text).isDir then
      if !t.contains p then t := t.putAt (placeOf p) (.directory [])
  let place := current / root.text
  if ← place.isDir then t := t.putAt (placeOf (here.join root)) (← loadEntry ⟨place, "."⟩)
  match t.content (Layout.tableFile root) with
  | .ok c => return (t.write (Layout.tableFile root) (tableOfContent c)).toOption.getD t
  | .error _ => return t

/-- Writes the files of the data of a project that a run changed. -/
def storeChanges (root : Path) (before after : FileTree) : IO Unit := do
  if after.isDirectory (Layout.dataDirectory root) then
    IO.FS.createDirAll (Layout.dataDirectory root).text
  for p in [Layout.configFile root, Layout.ignoreFile root, Layout.tableFile root,
      Layout.graphFile root, Layout.logFile root] do
    let old := (before.content p).toOption.bind bytesOf?
    match (after.content p).toOption.bind bytesOf? with
    | some data => if old != some data then IO.FS.writeBinFile p.text data
    | none => pure ()

/-! ### The embedding server -/

/-- Sends bytes to a host and gives what comes back until the other side ends. -/
def exchange (host port : String) (data : ByteArray) : IO ByteArray := do
  let socket ← TCP.Socket.Client.mk
  let addresses ← Async.block (DNS.getAddrInfo host port)
  let number := (port.toNat?.getD 80).toUInt16
  let some address := addresses[0]? | throw (IO.userError "no address")
  Async.block (socket.connect (match address with
    | .v4 a => .v4 ⟨a, number⟩
    | .v6 a => .v6 ⟨a, number⟩))
  Async.block (socket.send data)
  let mut answer := ByteArray.empty
  repeat
    match ← Async.block (socket.recv? 65536) with
    | some part => answer := answer ++ part
    | none => break
  return answer

/-- Waits for a task, looking a hundred times a second. -/
def await {α : Type} (task : Task (Except IO.Error α)) : Nat → IO α
  | 0 => throw (IO.userError "timeout")
  | n + 1 => do
    if ← IO.hasFinished task then IO.ofExcept task.get
    else
      IO.sleep 10
      await task n

/-- The reply of a server to a text, or why there is none. -/
def ask (s : EmbeddingServer) (timeout : Nat) (text : String) :
    IO (Except String ServerReply) := do
  let (host, behind) := s.address.1.span (· ≠ ':')
  let port := if behind.length < 2 then "80" else String.ofList (behind.drop 1)
  try
    let task ← IO.asTask (exchange (String.ofList host) port (s.requestText text).toUTF8)
    match EmbeddingServer.replyOfBytes? (← await task (100 * timeout)) with
    | some reply => return .ok reply
    | none => return .error "the reply cannot be read"
  catch e => return .error ("io: " ++ toString e)

/-- The replies to all texts that a run embeds. -/
def gather (s : Surroundings) (c : Command) : IO (List (String × Except String ServerReply)) := do
  match Command.prompts s c with
  | none => return []
  | some (config, texts) =>
    texts.eraseDups.mapM fun text =>
      return (text, ← ask (.ofConfig config) config.timeout text)

/-- The embedder that gives the replies which were gathered. -/
def embedderOf (replies : List (String × Except String ServerReply)) (c : EmbeddingConfig) :
    Embedder :=
  (EmbeddingServer.ofConfig c).embedder fun text =>
    (replies.lookup text).getD (.error "no request was made")

end CodeAtlas.Program

open CodeAtlas CodeAtlas.Program in
/-- Runs the command that the arguments ask for. -/
def main (args : List String) : IO UInt32 := do
  let started ← IO.monoMsNow
  let here : FileTree := ⟨.directory [], placeOf ⟨(← IO.currentDir).toString⟩⟩
  let root? := (Arguments.parse args).toOption.map fun c => (c, c.root here)
  let tree ← match root? with
    | some (_, root) => loadTree root
    | none => pure here
  let replies ← match root? with
    | some (c, _) => gather ⟨tree, embedderOf [], 0⟩ c
    | none => pure []
  let o := Command.runArguments ⟨tree, embedderOf replies, (← IO.monoMsNow) - started⟩ args
  if let some (_, root) := root? then storeChanges root tree o.tree
  IO.print o.out
  IO.eprint o.err
  return o.code.toUInt32
