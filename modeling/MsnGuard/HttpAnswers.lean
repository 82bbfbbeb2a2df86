import MsnGuard.IncrementalReading
import MsnGuard.IpAddresses

/-!
# Answers of HTTP/1.1 as they come in

An answer is read while it arrives: interim answers, then the head, then the body, which ends
after a number of bytes, at its last chunk, or with the connection. The head and the lines of a
chunked body are searched for only in what is new.
-/

namespace MsnGuard.HttpAnswers

open RustText IpAddresses IncrementalReading

/-- The most bytes of an answer. -/
def MAX_BODY : ℕ := 512*1024

/-- The most bytes of a line in a chunked body. -/
def MAX_LINE : ℕ := 8*1024

/-- The numbers of a machine word. -/
def USIZE : ℕ := 2^64

/-- The end of a line. -/
def CRLF : Bytes := [13,10]

/-- The end of a head. -/
def HEAD_END : Bytes := [13,10,13,10]

/-- Read a number below a bound: digits after an optional plus sign. -/
def fromStrRadix (radix bound : ℕ) (s : Text) : Option ℕ :=
  let digits := match s with
    | '+'::rest => rest
    | _ => s
  if digits≠[] ∧ digits.all (isDigit radix)=true ∧ digitsValue radix digits<bound then
    some (digitsValue radix digits)
  else none

/-- The lines of a head. -/
def splitLines : Text → List Text
  | [] => [[]]
  | '\r' :: '\n' :: rest => []::splitLines rest
  | c::rest =>
    match splitLines rest with
    | first::more => (c::first)::more
    | [] => [[c]]

/-- The words of a line. -/
def splitWhitespace (s : Text) : List Text := (splitAny isWhitespace s).filter (·≠[])

/-- The names and values of a head. -/
abbrev Fields := List (Text × Text)

section Chunks

/-- A chunked body, joined as it comes in. -/
structure Dechunker where
  /-- Where the next piece of the body starts. -/
  pos : ℕ := 0
  /-- How far the search for the end of the line has looked. -/
  searched : ℕ := 0
  /-- The size of the chunk whose data comes next. -/
  data : Option ℕ := none
  /-- Has the last chunk come, so that the trailer comes next? -/
  trailer : Bool := false
  done : Bool := false
  joined : Bytes := []
  deriving DecidableEq

/-- The error of a body that is not chunked. -/
def malformed (what : String) : Text := "a chunked answer with ".toList++what.toList

/-- The size in a line before the data of a chunk. -/
def chunkSize (line : Bytes) : Option ℕ :=
  (fromUtf8 line).bind fun line =>
    fromStrRadix 16 USIZE (trim ((splitAny (· == ';') line).headD []))

namespace Dechunker

/-- The data of a chunk, then the end of a line. -/
def dataTurn (body : Bytes) (d : Dechunker) (size : ℕ) : Turn Dechunker Text :=
  let last := d.pos+size+2
  if USIZE≤last then .fail (malformed "a chunk too large")
  else if body.length<last then .wait d
  else if (body.drop (last-2)).take 2≠CRLF then .fail (malformed "no line end after a chunk")
  else .next {d with joined := d.joined++(body.drop d.pos).take size
                     pos := last
                     searched := last
                     data := none}

/-- A line that has come: the size of a chunk, or a field of the trailer. -/
def lineTurn (d : Dechunker) (line : Bytes) : Turn Dechunker Text :=
  if d.trailer then .next {d with done := line.isEmpty}
  else match chunkSize line with
    | none => .fail (malformed "a bad chunk size")
    | some 0 => .next {d with trailer := true}
    | some size => .next {d with data := some size}

/-- A turn over a chunked body. -/
def turn (body : Bytes) (d : Dechunker) : Turn Dechunker Text :=
  if d.done then .done
  else match d.data with
    | some size => d.dataTurn body size
    | none =>
      match findFrom CRLF body (max (d.searched-1) d.pos) with
      | none =>
        if MAX_LINE<body.length-d.pos then .fail (malformed "a line too long")
        else .wait {d with searched := body.length}
      | some last =>
        lineTurn {d with pos := last+2,searched := last+2}
          ((body.drop d.pos).take (last-d.pos))

/-- Go on with the whole body so far, and say whether it has ended. -/
def advance (d : Dechunker) (body : Bytes) : Except Text (Dechunker × Bool) := run turn body d

/-- The body, joined. -/
def finish (d : Dechunker) : Except Text Bytes :=
  if d.done then .ok d.joined
  else .error "the chunked answer ended before its last chunk".toList

/-- The line at which a reader of a chunked body stands, if it has ended. -/
def line (body : Bytes) (d : Dechunker) : Option Bytes :=
  if d.done ∨ d.data.isSome then none
  else (findFrom CRLF body d.pos).map fun last => (body.drop d.pos).take (last-d.pos)

end Dechunker

/-- The lines of a chunked body. -/
def chunkLines (body : Bytes) : List Bytes :=
  (trail Dechunker.turn body (body.length+1) {}).filterMap (Dechunker.line body)

end Chunks

section Heads

/-- Where the body of an answer ends. -/
inductive Framing where
  /-- After this many bytes. -/
  | length (n : ℕ)
  /-- At its last chunk and the end of its trailer. -/
  | chunked (d : Dechunker)
  /-- With the connection. -/
  | close
  deriving DecidableEq

/-- The head of an answer. -/
structure Http1Head where
  status : ℕ
  fields : Fields
  /-- Where the body starts in the answer. -/
  bodyStart : ℕ
  framing : Framing
  deriving DecidableEq

/-- The status and the fields of a head. -/
def http1Head (head : Bytes) : Except Text (ℕ × Fields) :=
  let lines := splitLines (fromUtf8Lossy head)
  let statusLine := lines.headD []
  match ((splitWhitespace statusLine)[1]?).bind (fromStrRadix 10 (2^16)) with
  | none => .error ("bad status line: ".toList++statusLine)
  | some status =>
    .ok (status,(lines.tail.filterMap (splitOnce ':')).map fun (name,value) =>
      (trim name,trim value))

/-- The value of the first field with a name. -/
def field (fields : Fields) (wanted : Text) : Option Text :=
  (fields.find? fun (name,_) => eqIgnoreAsciiCase name wanted).map Prod.snd

/-- Where the body of an answer ends: chunked goes before any length. -/
def framing (status : ℕ) (fields : Fields) : Except Text Framing :=
  if status=204 ∨ status=304 then .ok (.length 0)
  else if (field fields "transfer-encoding".toList).any
      (fun value => containsText "chunked".toList (asciiLower value)) then .ok (.chunked {})
  else match field fields "content-length".toList with
    | some value =>
      match fromStrRadix 10 USIZE value with
      | some n => .ok (.length n)
      | none => .error ("bad Content-Length: ".toList++value)
    | none => .ok .close

/-- The head of an answer, or the search for it: where the head starts, past the
interim answers, and how far the search for its end has looked. Nothing asks for
these once the head is there. -/
inductive HeadSearch where
  | searching (headStart searched : ℕ)
  | found (head : Http1Head)
  deriving DecidableEq

namespace HeadSearch

/-- A head that has come: one of an interim answer, or of the answer itself. -/
def headTurn (last : ℕ) (head : Bytes) : Turn HeadSearch Text :=
  match http1Head head with
  | .error e => .fail e
  | .ok (status,fields) =>
    if (100 ≤ status ∧ status<200) ∧ status≠101 then .next (.searching (last+4) (last+4))
    else match framing status fields with
      | .error e => .fail e
      | .ok framing => .next (.found ⟨status,fields,last+4,framing⟩)

/-- A turn of the search. -/
def turn (raw : Bytes) : HeadSearch → Turn HeadSearch Text
  | .found _ => .done
  | .searching headStart searched =>
    match findFrom HEAD_END raw (max (searched-3) headStart) with
    | none => .wait (.searching headStart raw.length)
    | some last => headTurn last ((raw.drop headStart).take (last-headStart))

end HeadSearch

end Heads

section Answers

/-- An answer as it comes in. -/
structure Http1Answer where
  raw : Bytes := []
  head : HeadSearch := .searching 0 0
  deriving DecidableEq

namespace Http1Answer

/-- Go on with the body, and say whether it has ended. -/
def readBody (raw : Bytes) : HeadSearch → Except Text (Http1Answer × Bool)
  | .searching headStart searched => .ok (⟨raw,.searching headStart searched⟩,false)
  | .found head =>
    let body := raw.drop head.bodyStart
    match head.framing with
    | .length n => .ok (⟨raw,.found head⟩,n≤body.length)
    | .chunked d =>
      (d.advance body).map fun (d,whole) =>
        (⟨raw,.found {head with framing := .chunked d}⟩,whole)
    | .close => .ok (⟨raw,.found head⟩,false)

/-- Take the next bytes of the answer, and say whether it is whole. -/
def push (a : Http1Answer) (bytes : Bytes) : Except Text (Http1Answer × Bool) :=
  let raw := a.raw++bytes
  if MAX_BODY<raw.length then .error "the answer is too large".toList
  else (run HeadSearch.turn raw a.head).bind fun (head,_) => readBody raw head

/-- The status, the fields and the body once the connection has ended. -/
def finish (a : Http1Answer) : Except Text (ℕ × Fields × Bytes) :=
  match a.head with
  | .searching _ _ => .error (if a.raw=[] then "empty response".toList
      else "truncated response head".toList)
  | .found head =>
    let body := a.raw.drop head.bodyStart
    match head.framing with
    | .length n =>
      if body.length<n then
        .error ("the answer ended after ".toList++(toString body.length).toList ++
          " of its ".toList++(toString n).toList ++ " bytes".toList)
      else .ok (head.status,head.fields,body.take n)
    | .chunked d => d.finish.map fun body => (head.status,head.fields,body)
    | .close => .ok (head.status,head.fields,body)

/-- Push chunks one after the other. -/
def pushAll (chunks : List Bytes) : Except Text (Http1Answer × Bool) :=
  chunks.foldlM (fun (a,_) chunk => a.push chunk) ({},false)

/-- Push chunks until the answer is whole or the connection has ended. -/
def receive (a : Http1Answer) : List Bytes → Except Text (ℕ × Fields × Bytes)
  | [] => a.finish
  | chunk::rest => (a.push chunk).bind fun (a,whole) => if whole then a.finish else a.receive rest

end Http1Answer

/-- The lines of the body of an answer, if it is chunked. -/
def bodyLines (raw : Bytes) : List Bytes :=
  match run HeadSearch.turn raw (.searching 0 0) with
  | .ok (.found ⟨_,_,bodyStart,.chunked _⟩,_) => chunkLines (raw.drop bodyStart)
  | _ => []

end Answers

end MsnGuard.HttpAnswers
