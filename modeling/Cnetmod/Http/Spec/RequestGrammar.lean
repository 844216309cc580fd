import Cnetmod.Http.Source.RequestParser

/-!
# The framing rule of HTTP/1 requests

What a request is, as a grammar over the bytes received: the head with its
fields, and the one rule that says where the body ends. None of it depends on how
the bytes are cut into receives.
-/
namespace Cnetmod.Http.V1

open Option Coding List

/-- The bytes before the first line end, and those after it. -/
def nextLine (input : Bytes) : Option (Bytes × Bytes) :=
  (findCrlf input).map fun pos => (input.take pos, input.drop (pos + 2))

variable {rest inp msg rest' line : Bytes}

lemma nextLine_of_find (hf : findCrlf inp = some pos) : nextLine inp = some (inp.take pos, inp.drop (pos + 2)) := by
  rw [nextLine, hf, map_some]

lemma nextLine_append (hf : nextLine inp = some (line, rest))
    (more : Bytes) : nextLine (inp ++ more) = some (line, rest ++ more) := by
  obtain ⟨pos, hh, hs⟩ := map_eq_some_iff.mp hf
  cases hs
  have ha := find_some_le hh
  simp only [crlf, length_cons, length_nil] at ha
  rw [nextLine_of_find (find_append hh more), take_append_of_le_length (by omega), drop_append_of_le_length (by omega)]

lemma nextLine_eq (hf : nextLine inp = some (line, rest)) : inp = line ++ crlf ++ rest := by
  obtain ⟨pos, hh, hs⟩ := map_eq_some_iff.mp hf
  cases hs
  obtain ⟨pre, after, rfl, rfl⟩ := find_some hh
  simp [crlf]

structure Field where
  name : Bytes
  value : Bytes
  deriving DecidableEq

/-- A header line, cut at its first colon. -/
def fieldOf (line : Bytes) : Option Field :=
  match find ":" line with
  | none => none
  | some c => if trim (line.take c) = [] then none else some ⟨trim (line.take c), trim (line.drop (c + 1))⟩

/-- Header lines up to the empty one, their fields and what follows. -/
inductive FieldLines : Bytes → List Field → Bytes → Prop where
  | done {input rest : Bytes} (line : nextLine input = some ([], rest)) : FieldLines input [] rest
  | field {input line more rest : Bytes} {field : Field} {fields : List Field}
    (found : nextLine input = some (line, more)) (some : line ≠ [])
    (parsed : fieldOf line = Option.some field) (tail : FieldLines more fields rest) :
    FieldLines input (field :: fields) rest

/-- The head of a message: its fields, and the bytes after it. -/
inductive Head : Bytes → List Field → Bytes → Prop where
  | mk {message line lines rest : Bytes} {fields : List Field}
    (found : nextLine message = some (line, lines)) (tail : FieldLines lines fields rest) :
    Head message fields rest

lemma FieldLines.append (hl : FieldLines inp fs rest) (more : Bytes) : FieldLines (inp ++ more) fs (rest ++ more) := by
  induction hl with
  | done ha => exact .done (nextLine_append ha more)
  | field hf some hp _ ih => exact .field (nextLine_append hf more) some hp ih

lemma FieldLines.unique (he : FieldLines inp fs rest) (hb : FieldLines inp fields' rest') : fs = fields' ∧ rest = rest' := by
  induction he generalizing fields' with
  | done hn =>
    cases hb with
    | done hl =>
      rw [hn] at hl
      cases hl
      exact ⟨rfl, rfl⟩
    | field hf some _ _ =>
      rw [hn] at hf
      cases hf
      exact absurd rfl some
  | field hf some ha _ ih =>
    cases hb with
    | done hl =>
      rw [hf] at hl
      cases hl
      exact absurd rfl some
    | field ho _ hp ht =>
      rw [hf] at ho
      cases ho
      rw [ha] at hp
      cases hp
      obtain ⟨rfl, rfl⟩ := ih ht
      exact ⟨rfl, rfl⟩

lemma Head.append (hh : Head msg fs rest) (more : Bytes) : Head (msg ++ more) fs (rest ++ more) := by
  obtain ⟨hf, ht⟩ := hh
  exact .mk (nextLine_append hf more) (ht.append more)

lemma Head.unique (he : Head msg fs rest) (hh : Head msg fields' rest') : fs = fields' ∧ rest = rest' := by
  obtain ⟨ho, ha⟩ := he
  obtain ⟨hf, ht⟩ := hh
  rw [ho] at hf
  cases hf
  exact ha.unique ht

/-- The values of all fields of a name, in order. -/
def valuesOf (name : Bytes) (fields : List Field) : List Bytes :=
  (fields.filter fun field => headerEqual field.name name).map Field.value

/-- A chunk size line: hexadecimal digits, then nothing or an extension. -/
def chunkSize (line : Bytes) : Option Nat :=
  let digits := line.takeWhile (isDigit 16)
  let extension := (line.dropWhile (isDigit 16)).dropWhile isBlank
  if digits ≠ [] ∧ (line.dropWhile (isDigit 16) = [] ∨ extension.head? = some 59) then
    some (digitsValue 16 digits)
  else none

/-- Trailer lines up to the empty one. -/
inductive Trailers : Bytes → Bytes → Prop where
  | done {input rest : Bytes} (line : nextLine input = some ([], rest)) : Trailers input rest
  | field {input line more rest : Bytes} (found : nextLine input = some (line, more))
    (some : line ≠ []) (tail : Trailers more rest) : Trailers input rest

/-- A chunked body, its data, and what follows it. -/
inductive ChunkedBody : Bytes → Bytes → Bytes → Prop where
  | last {input line more rest : Bytes} (found : nextLine input = some (line, more))
    (size : chunkSize line = some 0) (trailers : Trailers more rest) : ChunkedBody input [] rest
  | chunk {input line data next body rest : Bytes}
    (found : nextLine input = some (line, data ++ crlf ++ next))
    (size : chunkSize line = some data.length) (some : data ≠ [])
    (tail : ChunkedBody next body rest) : ChunkedBody input (data ++ body) rest

lemma Trailers.length_lt (ht : Trailers inp rest) : rest.length < inp.length := by
  induction ht with
  | done hl =>
    rw [nextLine_eq hl]
    simp only [crlf, length_append, length_cons, length_nil]
    omega
  | field hf _ _ ih =>
    rw [nextLine_eq hf]
    simp only [crlf, length_append, length_cons, length_nil]
    omega

/-- A chunked body is longer than its data. -/
lemma ChunkedBody.length_lt (hc : ChunkedBody inp body rest) : body.length + rest.length < inp.length := by
  induction hc with
  | last hf _ ht =>
    have hs := ht.length_lt
    rw [nextLine_eq hf]
    simp only [length_append, length_nil]
    omega
  | chunk hf _ _ _ ih =>
    rw [nextLine_eq hf]
    simp only [length_append]
    omega

/-- All values are one string of digits, which does not exceed the limit. -/
def LengthIs (lengths : List Bytes) (n : Nat) : Prop :=
  ∃ text : Bytes, (∀ value ∈ lengths, value = text) ∧ text ≠ [] ∧ (∀ c ∈ text, isDigit 10 c = true) ∧
    digitsValue 10 text = n ∧ n ≤ maxBodySize

/-- The one coding is `chunked`, in any case. -/
def CodingIsChunked (codings : List Bytes) : Prop :=
  ∃ coding, codings = [coding] ∧ headerEqual coding "chunked" = true

/-- The bytes `rest` after the head are a body by the framing rule, followed by `unread`. -/
def Framed (fields : List Field) (rest body unread : Bytes) : Prop :=
  match valuesOf "Transfer-Encoding" fields, valuesOf "Content-Length" fields with
  | [], [] => body = [] ∧ unread = rest
  | [], lengths => LengthIs lengths body.length ∧ rest = body ++ unread
  | codings, _ => CodingIsChunked codings ∧ ChunkedBody rest body unread

/-- Nothing in the head or the body calls for a reading of its own. -/
def Clear (fields : List Field) (rest : Bytes) : Prop :=
  match valuesOf "Transfer-Encoding" fields, valuesOf "Content-Length" fields with
  | [], [] => True
  | [], lengths => ∃ n, LengthIs lengths n
  | codings, _ => codings = ["chunked"] ∧ ∃ body unread, ChunkedBody rest body unread

end Cnetmod.Http.V1
