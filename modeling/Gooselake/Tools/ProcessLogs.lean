import Gooselake.Tools.Gateway

/-!
`read_process_logs`: the lines asked for of each captured stream, from its start and from its end, and no more
than the bytes asked for.
-/

namespace Gooselake.Tools

open Gooselake.Core Data Library Library.Exec

set_option autoImplicit false

structure ProcessLogsChunk where
  processId : String
  stream : String
  content : String
  headLines : ℕ
  tailLines : ℕ
  truncated : Bool
  bytes : ℕ
  deriving DecidableEq, Repr

/-! ## Texts -/

def utf8Length (text : List Char) : ℕ := (text.map Char.utf8Size).sum

def withoutReturn (line : List Char) : List Char :=
  if line.getLast? = some '\r' then line.dropLast else line

/-- The lines of a text, of which `line` is read already; what follows the last line end is one more. -/
def linesFrom (line : List Char) : List Char → List (List Char)
  | [] => if line = [] then [] else [line]
  | c :: rest => if c = '\n' then withoutReturn line :: linesFrom [] rest else linesFrom (line ++ [c]) rest

/-- `str::lines`. -/
def lines (text : List Char) : List (List Char) := linesFrom [] text

/-- `from_utf8_lossy` of a text without its first `k` bytes: of a character that is cut, each byte left over is
replaced. -/
def cutFront : ℕ → List Char → List Char
  | 0, text => text
  | _ + 1, [] => []
  | k + 1, c :: rest =>
    if c.utf8Size ≤ k + 1 then cutFront (k + 1 - c.utf8Size) rest
    else List.replicate (c.utf8Size - (k + 1)) '\uFFFD' ++ rest

/-! ## The window -/

def pushed (ls : List (List Char)) : List Char := ls.flatMap fun line => line ++ ['\n']

/-- The first `head` lines and the last `tail`, with a mark where some between them are left out. -/
def windowText (ls : List (List Char)) (head tail : ℕ) : List Char :=
  (if 0 < head then pushed (ls.take head) else []) ++
    (if 0 < head ∧ head < ls.length - tail then "...\n".toList else []) ++
    pushed (ls.drop (ls.length - tail))

/-- The last bytes of a text that is longer than `maxBytes`. -/
def withinBytes (maxBytes : Option ℕ) (text : List Char) : List Char :=
  match maxBytes with
  | none => text
  | some maxBytes => cutFront (utf8Length text - maxBytes) text

def exceeds (maxBytes : Option ℕ) (text : List Char) : Bool := maxBytes.any fun maxBytes => maxBytes < utf8Length text

def readToString (file : ByteArray) : List Char := ((String.fromUTF8? file).getD "").toList

def logsChunk (processId stream : String) (file : ByteArray) (streamTruncated : Bool) (head tail : ℕ)
    (maxBytes : Option ℕ) : ProcessLogsChunk :=
  let ls := lines (readToString file)
  let out := windowText ls head tail
  let content := withinBytes maxBytes out
  { processId := processId
    stream := stream
    content := String.ofList content
    headLines := head
    tailLines := tail
    truncated := (decide (0 < head ∧ head < ls.length - tail) || exceeds maxBytes out) || streamTruncated
    bytes := utf8Length content }

/-! ## read_process_logs -/

def streamPath : OutputStream → ProcessRecord → Option String
  | .stdout, r => r.stdoutPath
  | .stderr, r => r.stderrPath

def requestedStreams (stream : Option String) : Except RuntimeError (List OutputStream) :=
  match stream with
  | none => .ok [.stdout, .stderr]
  | some "stdout" => .ok [.stdout]
  | some "stderr" => .ok [.stderr]
  | some other => .error (.invalidState s!"unsupported stream {other}")

/-- The chunks of the process `o`; `files` is what the log directory holds. -/
def logsOf (files : String → ByteArray) (request : ProcessLogReadRequest) (maxBytes : Option ℕ) (o : ManagedProcess)
    (streams : List OutputStream) : List ProcessLogsChunk :=
  streams.filterMap fun stream => (streamPath stream o.record).map fun path =>
    logsChunk o.record.id stream.asStr (files path) (capture stream o).truncated
      (request.headLines.getD 0) (request.tailLines.getD 80) maxBytes

def readProcessLogs (files : String → ByteArray) (request : ProcessLogReadRequest) (maxBytes : Option ℕ) :
    ProcessM (List ProcessLogsChunk) := do
  let h ← processFromId request.processId
  let o ← getObject h
  ensureOwnership o request.callerSessionId
  let streams ← ofExcept (requestedStreams request.stream)
  return logsOf files request maxBytes o streams

end Gooselake.Tools
