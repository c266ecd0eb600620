import CodeAtlas.Json.Basic
import CodeAtlas.Json.Decode
import CodeAtlas.Project.Config
import CodeAtlas.Single.Rounding
import CodeAtlas.Text.Pieces
import CodeAtlas.Vector.Embedder

/-!
# `CodeAtlas.Vector.Server`: vectors from a server

A server is asked for the vector of a text with a small JSON document, and answers with another.
What is sent and how an answer is read are functions; sending is left to the caller.
-/

set_option autoImplicit false

namespace CodeAtlas

open Json (Decoder)

/-- A server that makes vectors. -/
structure EmbeddingServer where
  /-- Where requests are sent. -/
  endpoint : String
  model : String
deriving DecidableEq, Repr

/-- What a server sends back. -/
structure ServerReply where
  status : Nat
  body : String
deriving DecidableEq, Repr

/-- Why a server gives no vector. -/
inductive ServerFault where
  /-- There is no reply, or one that refuses. -/
  | refused (reason : String)
  /-- The reply has no vector in it. -/
  | unusable (fault : Json.Fault)
deriving DecidableEq, Repr

/-- The messages of the two ways a request fails, as a diagnostic carries them. -/
def ServerFault.message : ServerFault → String
  | .refused reason => "Embedding request failed: " ++ reason
  | .unusable fault => "Invalid embedding response: " ++ fault.message

/-- A component of a vector. An integer is rounded at once, any other number by way of double
precision. -/
def Single.decode : Decoder Single
  | .number text =>
    if Json.tooLarge text then .error .malformed
    else
      match Json.integer? text with
      | some n =>
        if -0x8000000000000000 ≤ n && n ≤ 0xffffffffffffffff then
          let (m, q) := nearestBinary 24 (-149) n.natAbs 1
          .ok (Single.ofParts (n < 0) m q)
        else .ok (Single.ofNumber text)
      | none => .ok (Single.ofNumber text)
  | d => .error (Decoder.unexpected d)

namespace EmbeddingServer

/-- The text without the slashes at its end. -/
def withoutSlashes (text : List Char) : List Char :=
  (text.reverse.dropWhile (· = '/')).reverse

/-- The server of a configuration. -/
def ofConfig (c : EmbeddingConfig) : EmbeddingServer :=
  ⟨String.ofList (withoutSlashes c.baseUrl.toList) ++ "/api/embeddings", c.model⟩

/-- The address of a request: what stands between the scheme and the path, and the path. -/
def address (s : EmbeddingServer) : List Char × List Char :=
  let url := s.endpoint.toList
  let rest := (Text.afterStart? url "http://".toList).getD url
  (rest.takeWhile (· ≠ '/'), rest.dropWhile (· ≠ '/'))

/-- The first line of a request. -/
def requestLine (s : EmbeddingServer) : String :=
  "POST " ++ String.ofList s.address.2 ++ " HTTP/1.1"

/-- The document of a request. -/
def request (s : EmbeddingServer) (text : String) : Json :=
  .record [("model", .ofString s.model), ("prompt", .ofString text)]

/-- The shape of a reply. -/
def decodeReply : Decoder (List Single) :=
  Decoder.record ["embedding"] fun fs =>
    (fun vector => vector) <$> fs.required "embedding" (Decoder.list Single.decode)

/-- Whether replies of a status have no body. -/
def isBodiless (status : Nat) : Bool :=
  status = 204 || status = 304

/-- The vector of a reply. -/
def readReply (r : ServerReply) : Except ServerFault (List Single) :=
  if 400 ≤ r.status then .error (.refused ("http status: " ++ toString r.status))
  else
    let body := if isBodiless r.status then "" else r.body
    match Decoder.ofText decodeReply body.toList with
    | .ok vector => .ok vector
    | .error fault => .error (.unusable fault)

/-- The embedder that a server makes if it replies to texts in a given way. -/
def embedder (s : EmbeddingServer) (reply : String → Except String ServerReply) : Embedder where
  model := s.model
  embed text :=
    match reply text with
    | .error reason => .error (ServerFault.refused reason).message
    | .ok r => (readReply r).mapError ServerFault.message

/-! ### The form of requests and replies -/

/-- The whole text of a request. -/
def requestText (s : EmbeddingServer) (text : String) : String :=
  let body := (s.request text).compactText
  String.intercalate "\r\n"
    [s.requestLine, "host: " ++ String.ofList s.address.1, "content-type: application/json",
      "accept: application/json", "content-length: " ++ toString body.utf8ByteSize,
      "connection: close", "", body]

/-- The text in front of the first occurrence of another, and the text behind that. -/
def cutAt? (mark : List Char) : List Char → Option (List Char × List Char)
  | [] => none
  | c :: rest =>
    match Text.afterStart? (c :: rest) mark with
    | some behind => some ([], behind)
    | none => (cutAt? mark rest).map fun (before, behind) => (c :: before, behind)

/-- The body whose pieces each stand behind a line with their size; the first argument bounds
the number of pieces. -/
def joinPieces : Nat → ByteArray → ByteArray
  | 0, _ => .empty
  | bound + 1, data =>
    let line := data.toList.takeWhile (· ≠ 0x0d)
    let size := (line.map fun b => Char.ofNat b.toNat).filterMap Json.Draft.hexValue?
    let n := size.foldl (fun n d => 16 * n + d) 0
    let start := line.length + 2
    if n = 0 then .empty
    else data.extract start (start + n) ++ joinPieces bound (data.extract (start + n + 2) data.size)

/-- The reply in the bytes that a server sends, if they are one. -/
def replyOfBytes? (data : ByteArray) : Option ServerReply := do
  let (head, _) ← cutAt? "\r\n\r\n".toList (data.toList.map fun b => Char.ofNat b.toNat)
  let status ← (Text.pieces ' ' head)[1]?
  let body := data.extract (head.length + 4) data.size
  let pieced := Text.occursIn "transfer-encoding: chunked".toList (head.map Char.toLower)
  let text ← String.fromUTF8? (if pieced then joinPieces body.size body else body)
  return ⟨Json.digitsValue status, text⟩

end EmbeddingServer

end CodeAtlas
