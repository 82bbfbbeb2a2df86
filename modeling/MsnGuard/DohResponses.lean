import MsnGuard.SmartDnsPackets

/-!
# Responses of a server over HTTP

A response is a head up to a blank line and a body in chunks, of a length, or up to the end of
the connection. Interim responses are skipped.
-/

namespace MsnGuard.DohResponses

open Option
open RustText (Bytes)
open SmartDnsMessages (lowercase)

variable {bytes line rest body : Bytes} {rounds : ℕ}

/-- The longest message. -/
def maxMessageBytes : ℕ := 65535

/-- The longest head. -/
def maxHeadBytes : ℕ := 16384

/-- The longest line of a body in chunks. -/
def maxLineBytes : ℕ := 1024

/-- How many interim responses there can be, and one more. -/
def maxInterimResponses : ℕ := 4

/-- How many lines there can be behind the last chunk. -/
def maxTrailerLines : ℕ := 32

/-- What a server still sends on a connection. -/
structure Input where
  bytes : Bytes
  /-- Does it then end the connection, or say nothing until the timeout? -/
  ends : Bool

/-- The bytes of an ASCII text. -/
def ascii (text : String) : Bytes := text.toList.map fun c => UInt8.ofNat c.toNat

/-- Whitespace or a space character. -/
def isWhitespace (c : UInt8) : Bool := (9≤c && c≤13) || (28≤c && c≤32) || c == 0xA0

/-- Remove the leading and the trailing whitespace. -/
def trim (text : Bytes) : Bytes := (text.dropWhile isWhitespace).rdropWhile isWhitespace

/-- Is a text somewhere in another? -/
def contains (needle text : Bytes) : Bool := decide (needle <:+: text)

/-- The value of a digit or a letter. -/
def digit (radix : ℕ) (c : UInt8) : Option ℕ :=
  let value :=
    if 48≤c ∧ c≤57 then c.toNat-48
    else if 97≤c ∧ c≤122 then c.toNat-87
    else if 65≤c ∧ c≤90 then c.toNat-55
    else radix
  if value<radix then some value else none

/-- The value of digits, of which there may be none. -/
def digits (radix : ℕ) (text : Bytes) : Option ℕ :=
  text.foldlM (fun value c => (digit radix c).map (value*radix + ·)) 0

/-- A number of 32 bits, with or without a sign. -/
def toIntOrNull (radix : ℕ) (text : Bytes) : Option ℤ :=
  let within (bound : ℕ) (value : ℕ) : Option ℕ := if value≤bound then some value else none
  match text with
  | [] => none
  | first::rest =>
    if first<48 then
      if rest=[] then none
      else if first=45 then ((digits radix rest).bind (within (2 ^ 31))).map fun n => -(n : ℤ)
      else if first=43 then ((digits radix rest).bind (within (2 ^ 31-1))).map (↑)
      else none
    else ((digits radix text).bind (within (2 ^ 31-1))).map (↑)

/-- Exactly so many bytes. -/
def readExact (bytes : Bytes) (count : ℕ) : Option (Bytes × Bytes) :=
  if bytes.length<count then none else some (bytes.take count,bytes.drop count)

/-- How much of a blank line has been read: its last four bytes are two line ends. -/
def blankLine (matched : ℕ) (b : UInt8) : ℕ :=
  if b=13 ∧ (matched=0 ∨ matched=2) then matched+1
  else if b=10 ∧ (matched=1 ∨ matched=3) then matched+1
  else if b=13 then 1
  else 0

/-- The bytes up to a blank line, and what is behind it. -/
def readHead (matched size : ℕ) : Bytes → Option (Bytes × Bytes)
  | [] => none
  | b::rest =>
    if maxHeadBytes ≤ size then none
    else if blankLine matched b=4 then some ([b],rest)
    else (readHead (blankLine matched b) (size+1) rest).map fun (head,rest) => (b::head,rest)

/-- The lines of a head. -/
def headLines : Bytes → List Bytes
  | 13::10::rest => []::headLines rest
  | c::rest => match headLines rest with
    | first::more => (c::first)::more
    | [] => [[c]]
  | [] => [[]]

/-- What a head says. -/
structure Head where
  status : ℤ
  contentLength : Option ℤ
  chunked : Bool
  close : Bool
  deriving DecidableEq

/-- One header of a head. The last header of a name counts. -/
def Head.header (head : Head) (line : Bytes) : Head :=
  let colon := line.findIdx (· == 58)
  if colon=0 ∨ line.length≤colon then head
  else
    let name := lowercase (trim (line.take colon))
    let value := lowercase (trim (line.drop (colon+1)))
    if name=ascii "content-length" then {head with contentLength := toIntOrNull 10 value}
    else if name=ascii "transfer-encoding" then
      {head with chunked := contains (ascii "chunked") value}
    else if name=ascii "connection" then
      {head with
        close := if contains (ascii "keep-alive") value then false
          else if contains (ascii "close") value then true else head.close}
    else head

/-- The status line and the headers that say how the body is framed. -/
def parseHead (text : Bytes) : Option Head :=
  match (headLines text).filter (·≠[]) with
  | [] => none
  | statusLine::headers => match statusLine.splitOn 32 with
    | version::code::_ =>
      if (ascii "HTTP/").isPrefixOf version then
        (toIntOrNull 10 code).map fun status =>
          headers.foldl Head.header ⟨status,none,false,decide (version=ascii "HTTP/1.0")⟩
      else none
    | _ => none

/-- The bytes up to a line end, and what is behind it. -/
def lineBytes (size : ℕ) : Bytes → Option (Bytes × Bytes)
  | [] => none
  | b::rest =>
    if maxLineBytes ≤ size then none
    else if b=10 then some ([],rest)
    else (lineBytes (size+1) rest).map fun (line,rest) => (b::line,rest)

/-- A line without its line end. -/
def readLine (bytes : Bytes) : Option (Bytes × Bytes) :=
  (lineBytes 0 bytes).map fun (line,rest) =>
    (if line.getLast?=some 13 then line.dropLast else line,rest)

/-- Is one of the next lines empty? -/
def readTrailers : ℕ → Bytes → Bool
  | 0,_ => false
  | left+1,bytes => match readLine bytes with
    | none => false
    | some (line,rest) => if line=[] then true else readTrailers left rest

/-- A body in chunks. Every chunk takes a byte, so that as many rounds as there are bytes,
and one more, are enough. -/
def chunks : ℕ → Bytes → Bytes → Option Bytes
  | 0,_,_ => none
  | rounds+1,out,bytes =>
    if maxMessageBytes<out.length then none
    else (readLine bytes).bind fun (line,rest) =>
      (toIntOrNull 16 (trim (line.takeWhile (·≠59)))).bind fun size =>
        if size<0 then none
        else if size=0 then if readTrailers maxTrailerLines rest then some out else none
        else if maxMessageBytes<out.length+size.toNat then none
        else (readExact rest size.toNat).bind fun (chunk,rest) =>
          (readLine rest).bind fun (_,rest) => chunks rounds (out++chunk) rest

/-- A body in chunks. -/
def readChunked (bytes : Bytes) : Option Bytes := chunks (bytes.length+1) [] bytes

/-- A body up to the end of the connection. -/
def readToEnd (input : Input) : Option Bytes :=
  if input.ends ∧ input.bytes.length ≤ maxMessageBytes then some input.bytes else none

/-- A response of a server. -/
structure DohResponse where
  status : ℤ
  body : Bytes
  close : Bool
  deriving DecidableEq

/-- The body, as the head frames it. -/
def readBody (head : Head) (input : Input) : Option Bytes :=
  if head.chunked then readChunked input.bytes
  else match head.contentLength with
    | some length =>
      if 0≤length ∧ length ≤ maxMessageBytes then
        (readExact input.bytes length.toNat).map Prod.fst
      else none
    | none => readToEnd input

/-- A response behind at most so many interim ones, less one. -/
def readResponses : ℕ → Input → Option DohResponse
  | 0,_ => none
  | left+1,input => (readHead 0 0 input.bytes).bind fun (text,rest) =>
    (parseHead text).bind fun head =>
      if 100≤head.status ∧ head.status≤199 then readResponses left ⟨rest,input.ends⟩
      else (readBody head ⟨rest,input.ends⟩).map fun body =>
        ⟨head.status,body,head.close || (!head.chunked && head.contentLength.isNone)⟩

/-- One response. -/
def readDohResponse (input : Input) : Option DohResponse :=
  readResponses maxInterimResponses input

theorem lineBytes_length {size : ℕ} (h : lineBytes size bytes=some (line,rest)) :
    rest.length<bytes.length := by
  induction bytes generalizing size line with
  | nil => cases h
  | cons b bytes ih =>
    rw [lineBytes] at h
    split at h
    · cases h
    split at h
    · cases h
      exact Nat.lt_succ_self _
    · obtain ⟨⟨line',rest'⟩,hline,heq⟩ := map_eq_some_iff.mp h
      cases heq
      have hlt := ih hline
      rw [List.length_cons]
      omega

theorem readLine_length (h : readLine bytes=some (line,rest)) : rest.length<bytes.length := by
  obtain ⟨⟨line',rest'⟩,hline,heq⟩ := map_eq_some_iff.mp h
  cases heq
  exact lineBytes_length hline

/-- The rounds for the chunks are enough: one more changes nothing. -/
theorem chunks_succ (h : bytes.length<rounds) (out : Bytes) :
    chunks (rounds+1) out bytes=chunks rounds out bytes := by
  induction rounds generalizing bytes out with
  | zero => omega
  | succ rounds ih =>
    rw [chunks,chunks]
    split
    · rfl
    refine bind_congr fun ⟨line,rest⟩ hline => ?_
    refine bind_congr fun size _ => ?_
    split
    · rfl
    split
    · rfl
    split
    · rfl
    refine bind_congr fun ⟨chunk,rest'⟩ hchunk => ?_
    refine bind_congr fun ⟨ending,rest''⟩ hending => ?_
    have hshort : rest'.length≤rest.length := by
      unfold readExact at hchunk
      split_ifs at hchunk
      cases hchunk
      rw [List.length_drop]
      omega
    have hfirst := readLine_length hline
    have hsecond : rest''.length<rest'.length := readLine_length hending
    have hrounds : rest''.length<rounds := by omega
    exact ih hrounds _

/-- A message is no longer than the longest message. -/
theorem chunks_length {out : Bytes} (h : chunks rounds out bytes=some body) :
    body.length ≤ maxMessageBytes := by
  induction rounds generalizing out bytes with
  | zero => cases h
  | succ rounds ih =>
    rw [chunks] at h
    split_ifs at h
    obtain ⟨⟨line,rest⟩,-,h⟩ := bind_eq_some_iff.mp h
    obtain ⟨size,-,h⟩ := bind_eq_some_iff.mp h
    split at h
    · cases h
    split at h
    · split_ifs at h
      cases h
      omega
    split_ifs at h
    obtain ⟨⟨chunk,rest'⟩,-,h⟩ := bind_eq_some_iff.mp h
    obtain ⟨⟨ending,rest''⟩,-,h⟩ := bind_eq_some_iff.mp h
    exact ih h

variable {input : Input}

/-- A body is no longer than the longest message. -/
theorem readBody_length {head : Head} (h : readBody head input=some body) :
    body.length ≤ maxMessageBytes := by
  unfold readBody at h
  split at h
  · exact chunks_length h
  split at h
  · rename_i length _
    split_ifs at h with hbound
    obtain ⟨⟨part,rest⟩,hread,heq⟩ := map_eq_some_iff.mp h
    cases heq
    unfold readExact at hread
    split_ifs at hread
    cases hread
    rw [List.length_take]
    omega
  · unfold readToEnd at h
    split_ifs at h
    cases h
    omega

/-- The body of a response is no longer than the longest message. -/
theorem readDohResponse_length {response : DohResponse} (h : readDohResponse input=some response) :
    response.body.length ≤ maxMessageBytes := by
  suffices hany : ∀ left input, readResponses left input=some response →
      response.body.length ≤ maxMessageBytes from hany _ _ h
  intro left
  induction left with
  | zero => rintro input ⟨⟩
  | succ left ih =>
    intro input h
    obtain ⟨⟨text,rest⟩,-,h⟩ := bind_eq_some_iff.mp h
    obtain ⟨head,-,h⟩ := bind_eq_some_iff.mp h
    split at h
    · exact ih _ h
    · obtain ⟨body,hbody,heq⟩ := map_eq_some_iff.mp h
      cases heq
      exact readBody_length hbody

end MsnGuard.DohResponses
