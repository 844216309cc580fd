import Cnetmod.Http.Source.Huffman

/-!
# The HPACK codec (`http/v2/header_compression.cpp`)

Strings are lists of bytes. A block is read from the front: where the source
moves an offset, the functions here return the rest of the input.
-/
namespace Cnetmod.Http.V2

open Coding

/-- The error codes of the HTTP/2 modules. -/
inductive Errc where
  | invalidArgument
  | messageSize
  | operationCanceled
  | protocolError
  deriving DecidableEq

structure HeaderField where
  name : Bytes
  value : Bytes
  sensitive : Bool := false
  deriving DecidableEq

structure Entry where
  name : Bytes
  value : Bytes
  deriving DecidableEq

/-- What an entry counts towards the table limit. -/
def Entry.size (item : Entry) : Nat := item.name.length + item.value.length + 32

def staticTable : List Entry :=
  [⟨[], []⟩, ⟨":authority", ""⟩, ⟨":method", "GET"⟩,
   ⟨":method", "POST"⟩, ⟨":path", "/"⟩,
   ⟨":path", "/index.html"⟩, ⟨":scheme", "http"⟩,
   ⟨":scheme", "https"⟩, ⟨":status", "200"⟩, ⟨":status", "204"⟩,
   ⟨":status", "206"⟩, ⟨":status", "304"⟩, ⟨":status", "400"⟩,
   ⟨":status", "404"⟩, ⟨":status", "500"⟩,
   ⟨"accept-charset", ""⟩, ⟨"accept-encoding", "gzip, deflate"⟩,
   ⟨"accept-language", ""⟩, ⟨"accept-ranges", ""⟩,
   ⟨"accept", ""⟩, ⟨"access-control-allow-origin", ""⟩,
   ⟨"age", ""⟩, ⟨"allow", ""⟩, ⟨"authorization", ""⟩,
   ⟨"cache-control", ""⟩, ⟨"content-disposition", ""⟩,
   ⟨"content-encoding", ""⟩, ⟨"content-language", ""⟩,
   ⟨"content-length", ""⟩, ⟨"content-location", ""⟩,
   ⟨"content-range", ""⟩, ⟨"content-type", ""⟩, ⟨"cookie", ""⟩,
   ⟨"date", ""⟩, ⟨"etag", ""⟩, ⟨"expect", ""⟩,
   ⟨"expires", ""⟩, ⟨"from", ""⟩, ⟨"host", ""⟩,
   ⟨"if-match", ""⟩, ⟨"if-modified-since", ""⟩,
   ⟨"if-none-match", ""⟩, ⟨"if-range", ""⟩,
   ⟨"if-unmodified-since", ""⟩, ⟨"last-modified", ""⟩,
   ⟨"link", ""⟩, ⟨"location", ""⟩, ⟨"max-forwards", ""⟩,
   ⟨"proxy-authenticate", ""⟩, ⟨"proxy-authorization", ""⟩,
   ⟨"range", ""⟩, ⟨"referer", ""⟩, ⟨"refresh", ""⟩,
   ⟨"retry-after", ""⟩, ⟨"server", ""⟩, ⟨"set-cookie", ""⟩,
   ⟨"strict-transport-security", ""⟩, ⟨"transfer-encoding", ""⟩,
   ⟨"user-agent", ""⟩, ⟨"vary", ""⟩, ⟨"via", ""⟩,
   ⟨"www-authenticate", ""⟩]

structure StaticLookup where
  index : Nat := 0
  knownName : Bool := false

def commonStaticIndex (name value : Bytes) (exact : Bool) : StaticLookup :=
  if name = ":method" then
    if !exact || value = "GET" then ⟨2, true⟩
    else ⟨if value = "POST" then 3 else 0, true⟩
  else if name = ":path" then
    if !exact || value = "/" then ⟨4, true⟩
    else ⟨if value = "/index.html" then 5 else 0, true⟩
  else if name = ":scheme" then
    if !exact || value = "http" then ⟨6, true⟩
    else ⟨if value = "https" then 7 else 0, true⟩
  else if name = ":status" then
    if !exact || value = "200" then ⟨8, true⟩
    else if value = "204" then ⟨9, true⟩
    else if value = "206" then ⟨10, true⟩
    else if value = "304" then ⟨11, true⟩
    else if value = "400" then ⟨12, true⟩
    else if value = "404" then ⟨13, true⟩
    else ⟨if value = "500" then 14 else 0, true⟩
  else if name = ":authority" then ⟨if exact && !value.isEmpty then 0 else 1, true⟩
  else if name = "content-length" then ⟨if exact && !value.isEmpty then 0 else 28, true⟩
  else if name = "content-type" then ⟨if exact && !value.isEmpty then 0 else 31, true⟩
  else if name = "host" then ⟨if exact && !value.isEmpty then 0 else 38, true⟩
  else if name = "user-agent" then ⟨if exact && !value.isEmpty then 0 else 58, true⟩
  else {}

/-- The seven-bit groups after a full first byte; five hold every 32-bit value. -/
def encodeGroups : Nat → Nat → Bytes
  | 0, value => [UInt8.ofNat value]
  | fuel + 1, value =>
    if value < 128 then [UInt8.ofNat value]
    else UInt8.ofNat ((value &&& 0x7f) ||| 0x80) :: encodeGroups fuel (value >>> 7)

/-- `value` is a 32-bit integer, `width` the width of the prefix. -/
def encodeInteger (value width head : Nat) : Bytes :=
  let mask := 2 ^ width - 1
  if value < mask then [UInt8.ofNat (head ||| value)]
  else UInt8.ofNat (head ||| mask) :: encodeGroups 4 (value - mask)

def decodeGroups : Bytes → (shift value : Nat) → Option (Nat × Bytes)
  | [], _, _ => none
  | byte :: rest, shift, value =>
    if shift > 28 then none
    else if shift = 28 ∧ byte > 0x7f then none
    else
      let value := (value + ((byte &&& 0x7f).toNat <<< shift)) % 2 ^ 32
      if byte &&& 0x80 = 0 then some (value, rest) else decodeGroups rest (shift + 7) value

def decodeInteger (input : Bytes) (width : Nat) : Option (Nat × Bytes) :=
  match input with
  | [] => none
  | first :: rest =>
    let mask := 2 ^ width - 1
    let value := first.toNat &&& mask
    if value < mask then some (value, rest) else decodeGroups rest 0 value

/-- The sizes are cast to 32 bits. -/
def encodeString (value : Bytes) : Bytes :=
  let scratch := huffmanEncode value
  if scratch.length < value.length then
    encodeInteger (scratch.length % 2 ^ 32) 7 0x80 ++ scratch
  else encodeInteger (value.length % 2 ^ 32) 7 0 ++ value

def decodeString (input : Bytes) : Option (Bytes × Bytes) :=
  match input with
  | [] => none
  | first :: _ =>
    match decodeInteger input 7 with
    | none => none
    | some (size, rest) =>
      if size > rest.length then none
      else if first &&& 0x80 ≠ 0 then
        match huffmanDecode (rest.take size) with
        | none => none
        | some text => some (text, rest.drop size)
      else some (rest.take size, rest.drop size)

structure HeaderCompression where
  dynamicTable : List Entry := []
  dynamicTableBytes : Nat := 0
  dynamicTableLimit : Nat := 4096
  decodedBlock : Bytes := []
  decodedFields : List HeaderField := []
  deriving DecidableEq

namespace HeaderCompression

/-- The loop of `evict`, over the table with its oldest entry first. -/
def evictLoop (limit : Nat) : List Entry → Nat → List Entry × Nat
  | [], bytes => ([], bytes)
  | oldest :: newer, bytes =>
    if bytes > limit then evictLoop limit newer (bytes - oldest.size) else (oldest :: newer, bytes)

def evict (s : HeaderCompression) : HeaderCompression :=
  let (kept, bytes) := evictLoop s.dynamicTableLimit s.dynamicTable.reverse s.dynamicTableBytes
  { s with dynamicTable := kept.reverse, dynamicTableBytes := bytes }

def insert (s : HeaderCompression) (item : Entry) : HeaderCompression :=
  if item.size > s.dynamicTableLimit then
    { s with decodedBlock := [], dynamicTable := [], dynamicTableBytes := 0 }
  else
    evict
      { s with
        decodedBlock := []
        dynamicTable := item :: s.dynamicTable
        dynamicTableBytes := s.dynamicTableBytes + item.size }

def at_ (s : HeaderCompression) (index : Nat) : Option Entry :=
  if 0 < index ∧ index < staticTable.length then staticTable[index]?
  else if staticTable.length ≤ index then s.dynamicTable[index - staticTable.length]?
  else none

/-- `0` when there is no match; a position in the dynamic table is cast to 32 bits. -/
def find (s : HeaderCompression) (name value : Bytes) (exact : Bool) : Nat :=
  let common := commonStaticIndex name value exact
  let isMatch := fun item : Entry => item.name == name && (!exact || item.value == value)
  if common.index ≠ 0 then common.index
  else
    match s.dynamicTable.findIdx? isMatch with
    | some i => (staticTable.length + i) % 2 ^ 32
    | none =>
      if !common.knownName then
        match (staticTable.drop 1).findIdx? isMatch with
        | some i => i + 1
        | none => 0
      else 0

def setDynamicTableLimit (s : HeaderCompression) (bytes : Nat) : HeaderCompression :=
  evict { s with decodedBlock := [], dynamicTableLimit := bytes }

/-- The locals of the loop of `decode_into`. -/
structure DecodeLoop where
  codec : HeaderCompression
  output : List HeaderField := []
  canResize : Bool := true
  changesTable : Bool := false

/-- A name is a reference when the index is not `0`, else a literal that must not be empty. -/
def decodeName (codec : HeaderCompression) (index : Nat) (rest : Bytes) : Option (Bytes × Bytes) :=
  if index ≠ 0 then (codec.at_ index).map fun entry => (entry.name, rest)
  else
    match decodeString rest with
    | none => none
    | some (name, rest) => if name.isEmpty then none else some (name, rest)

/-- One turn of the loop; `none` is its `protocol_error`, which leaves the codec alone. -/
def decodeField (l : DecodeLoop) (block : Bytes) : Option (DecodeLoop × Bytes) :=
  match block with
  | [] => none
  | first :: _ =>
    if first &&& 0x80 ≠ 0 then
      match decodeInteger block 7 with
      | none => none
      | some (index, rest) =>
        (l.codec.at_ index).map fun entry =>
          ({ l with
              output := l.output ++ [{ name := entry.name, value := entry.value }]
              canResize := false }, rest)
    else if first &&& 0xe0 = 0x20 then
      if !l.canResize then none
      else
        (decodeInteger block 5).map fun (size, rest) =>
          ({ l with codec := l.codec.setDynamicTableLimit size, changesTable := true }, rest)
    else
      let incremental : Bool := first &&& 0xc0 = 0x40
      let sensitive : Bool := first &&& 0xf0 = 0x10
      match decodeInteger block (if incremental then 6 else 4) with
      | none => none
      | some (index, rest) =>
        match decodeName l.codec index rest with
        | none => none
        | some (name, rest) =>
          match decodeString rest with
          | none => none
          | some (value, rest) =>
            some
              ({ codec := if incremental then l.codec.insert ⟨name, value⟩ else l.codec
                 output := l.output ++ [{ name, value, sensitive }]
                 canResize := false
                 changesTable := l.changesTable || incremental }, rest)

/-- Every turn takes a byte at least, so the length of the block bounds the turns. -/
def decodeLoop : Nat → DecodeLoop → Bytes → DecodeLoop × Bool
  | _, l, [] => (l, true)
  | 0, l, _ :: _ => (l, false)
  | fuel + 1, l, first :: tail =>
    match decodeField l (first :: tail) with
    | none => (l, false)
    | some (l, rest) => decodeLoop fuel l rest

def toLowerAscii (b : UInt8) : UInt8 := if 0x41 ≤ b ∧ b ≤ 0x5a then b + 0x20 else b

def equalsAscii (name : Bytes) (lower : String) : Bool := name.map toLowerAscii == ascii lower

/-- The running size of the fields worth remembering, `none` for one that is not. -/
def memoBytes (bytes : Nat) (field : HeaderField) : Option Nat :=
  if field.sensitive || equalsAscii field.name "authorization" ||
      equalsAscii field.name "proxy-authorization" || equalsAscii field.name "cookie" ||
      equalsAscii field.name "set-cookie" then none
  else if field.name.length > 4096 - bytes then none
  else if field.value.length > 4096 - (bytes + field.name.length) then none
  else some (bytes + field.name.length + field.value.length)

def rememberDecodedBlock (s : HeaderCompression) (block : Bytes) (fields : List HeaderField) :
    HeaderCompression :=
  if block.isEmpty || block.length > 512 || fields.length > 16 then s
  else
    match fields.foldlM memoBytes 0 with
    | none => s
    | some _ => { s with decodedBlock := block, decodedFields := fields }

def decode (s : HeaderCompression) (block : Bytes) : HeaderCompression × Except Errc (List HeaderField) :=
  if !s.decodedBlock.isEmpty && block == s.decodedBlock then (s, .ok s.decodedFields)
  else
    match decodeLoop block.length { codec := s } block with
    | (l, false) => (l.codec, .error .protocolError)
    | (l, true) =>
      (if l.changesTable then l.codec else l.codec.rememberDecodedBlock block l.output, .ok l.output)

/-- Whether a field that has no exact match is added to the table. -/
def indexed (s : HeaderCompression) (field : HeaderField) : Bool :=
  s.dynamicTableLimit ≠ 0 && !field.sensitive && field.name ≠ "authorization" &&
    field.name ≠ "cookie" && field.name ≠ "set-cookie"

/-- One turn of the loop of `encode`, for a field with a name. -/
def encodeField (s : HeaderCompression) (field : HeaderField) : HeaderCompression × Bytes :=
  let exact := s.find field.name field.value true
  if exact ≠ 0 then (s, encodeInteger exact 7 0x80)
  else
    let name := s.find field.name [] false
    let head := encodeInteger name (if s.indexed field then 6 else 4)
      (if s.indexed field then 0x40 else if field.sensitive then 0x10 else 0)
    let literal := if name = 0 then encodeString field.name else []
    (if s.indexed field then s.insert ⟨field.name, field.value⟩ else s, head ++ literal ++ encodeString field.value)

/-- A field without a name stops the loop; what was inserted before it stays. -/
def encode (s : HeaderCompression) : List HeaderField → HeaderCompression × Except Errc Bytes
  | [] => (s, .ok [])
  | field :: fields =>
    if field.name.isEmpty then (s, .error .invalidArgument)
    else
      let (s, bytes) := s.encodeField field
      let (s, rest) := encode s fields
      (s, rest.map (bytes ++ ·))

end HeaderCompression

end Cnetmod.Http.V2
