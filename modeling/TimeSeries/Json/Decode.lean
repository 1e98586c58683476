import TimeSeries.Json.Reader
import TimeSeries.SortedMap

/-!
# Reading values off a document

A document is decoded from the left, and decoding stops at the first thing that is not as it should
be.  Either the text is no JSON there (`Mistake.syntactic`) or it is JSON of another shape than the
value (`Mistake.shape`); which of the two it is depends only on the text up to that place.

A record is an object whose members are its fields, in any order, each at most once; members with
other names are skipped.  An array of the fields in their fixed order is accepted as well.
-/

set_option autoImplicit false

namespace TimeSeries.Json

/-- Why a document does not yield a value. -/
inductive Mistake where
  /-- The text is not JSON. -/
  | syntactic
  /-- The text is JSON of another shape. -/
  | shape
  deriving DecidableEq, Repr

/-- The result of decoding. -/
abbrev Decoded := Except Mistake

/-- The mistake of a value that has another shape than the one wanted. -/
def otherShape {α : Type} : Json → Decoded α
  | malformed => .error .syntactic
  | unreadable => .error .syntactic
  | _ => .error .shape

/-! ## Simple values -/

def toBool : Json → Decoded Bool
  | bool value => .ok value
  | json => otherShape json

def toText : Json → Decoded String
  | string value => .ok value
  | json => otherShape json

/-- An integer of 64 bits. -/
def toTimestamp : Json → Decoded Timestamp
  | number (.natural value) =>
      match Timestamp.ofInt? value with
      | some timestamp => .ok timestamp
      | none => .error .shape
  | number (.negative value) => .ok (Int64.ofInt value)
  | json => otherShape json

/-- A natural number of 64 bits. -/
def toCount : Json → Decoded Nat
  | number (.natural value) => .ok value
  | json => otherShape json

/-- A double; integers are rounded to the nearest one. -/
def toValue : Json → Decoded Binary64
  | number (.natural value) => .ok (Binary64.ofNat value)
  | number (.negative value) => .ok (Binary64.ofInt value)
  | number (.real value) => .ok value
  | json => otherShape json

/-- A value that may be missing: `null`, or the value. -/
def toOption {α : Type} (decode : Json → Decoded α) : Json → Decoded (Option α)
  | null => .ok none
  | json => (decode json).map some

/-! ## Collections -/

/-- Decodes items in turn. -/
def decodeItems {α : Type} (decode : Json → Decoded α) (ended : Bool) :
    List Json → Decoded (List α)
  | [] => if ended then .ok [] else .error .syntactic
  | item :: rest => do
      let value ← decode item
      let values ← decodeItems decode ended rest
      return value :: values

/-- The items of an array. -/
def toList {α : Type} (decode : Json → Decoded α) : Json → Decoded (List α)
  | array items ended => decodeItems decode ended items
  | json => otherShape json

/-- Decodes members in turn; of members with one name the last counts. -/
def decodeMembers {α : Type} (decode : Json → Decoded α) (ended : Bool)
    (map : SortedMap String α) : List (String × Json) → Decoded (SortedMap String α)
  | [] => if ended then .ok map else .error .syntactic
  | (key, member) :: rest => do
      let value ← decode member
      decodeMembers decode ended (map.insert key value) rest

/-- The members of an object whose names are not fixed. -/
def toMap {α : Type} (decode : Json → Decoded α) : Json → Decoded (SortedMap String α)
  | object members ended => decodeMembers decode ended .empty members
  | json => otherShape json

/-! ## Records -/

/-- How the fields of a record are called, in order, and how a field changes what is known of the
record so far. -/
structure Fields (σ : Type) where
  /-- For each field the names it goes by; the first one identifies it. -/
  names : List (List String)
  /-- Takes the value of the field with the given identifying name. -/
  take : String → Json → σ → Decoded σ

namespace Fields

variable {σ : Type}

/-- The identifying name of the field that goes by a name. -/
def identify (fields : Fields σ) (name : String) : Option String :=
  (fields.names.find? (·.contains name)).bind List.head?

/-- Takes the members of an object in turn; `seen` are the fields already taken. -/
def takeMembers (fields : Fields σ) (ended : Bool) (seen : List String) (state : σ) :
    List (String × Json) → Decoded σ
  | [] => if ended then .ok state else .error .syntactic
  | (name, value) :: rest =>
      match fields.identify name with
      | none =>
          if value.isComplete then takeMembers fields ended seen state rest
          else .error .syntactic
      | some field =>
          if seen.contains field then .error .shape
          else do
            let state ← fields.take field value state
            takeMembers fields ended (field :: seen) state rest

/-- Takes the items of an array as the fields in order. -/
def takeItems (fields : Fields σ) (ended : Bool) (state : σ) :
    List (List String) → List Json → Decoded σ
  | _, [] => if ended then .ok state else .error .syntactic
  | [], _ :: _ => .error .syntactic
  | names :: otherNames, value :: rest => do
      let state ← fields.take (names.head?.getD "") value state
      takeItems fields ended state otherNames rest

/-- What the fields in a document say, starting from what is known without them. -/
def decode (fields : Fields σ) (start : σ) : Json → Decoded σ
  | object members ended => fields.takeMembers ended [] start members
  | array items ended => fields.takeItems ended start fields.names items
  | json => otherShape json

end Fields

/-- A field that a record must have. -/
def required {α : Type} : Option α → Decoded α
  | some value => .ok value
  | none => .error .shape

/-- Decodes the value at the front of a text, and requires that nothing else follows. -/
def decodeText {α : Type} (decode : Json → Decoded α) (text : String) : Decoded α := do
  let value ← decode (front text)
  if isAlone text then return value else .error .syntactic

end TimeSeries.Json
