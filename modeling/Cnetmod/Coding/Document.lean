import Cnetmod.Coding.Bits

/-!
# Documents

Documents made of numbers, texts, lists and objects, and the typed access to the
fields of an object with a value for what is missing.
-/
namespace Cnetmod.Coding

inductive Document where
  | null
  | bool (value : Bool)
  | number (value : Nat)
  | text (value : Bytes)
  | array (values : List Document)
  | object (fields : List (Bytes × Document))

/-- Reading gives back what was written. -/
structure DocumentFormat (τ : Type*) where
  write : Document → τ
  parse : τ → Option Document
  parse_write : ∀ document, parse (write document) = some document

namespace Document

def find (document : Document) (key : Bytes) : Option Document :=
  match document with
  | object fields => (fields.find? (·.1 = key)).map (·.2)
  | _ => none

def numberOr (document : Document) (key : Bytes) (fallback : Nat) : Nat :=
  match document.find key with
  | some (number value) => value
  | _ => fallback

def textOr (document : Document) (key : Bytes) (fallback : Bytes) : Bytes :=
  match document.find key with
  | some (text value) => value
  | _ => fallback

def boolOr (document : Document) (key : Bytes) (fallback : Bool) : Bool :=
  match document.find key with
  | some (bool value) => value
  | _ => fallback

/-- The elements of a field that is an array. -/
def elements (document : Document) (key : Bytes) : List Document :=
  match document.find key with
  | some (array values) => values
  | _ => []

/-- The fields of a field that is an object. -/
def members (document : Document) (key : Bytes) : List (Bytes × Document) :=
  match document.find key with
  | some (object fields) => fields
  | _ => []

end Document

end Cnetmod.Coding
