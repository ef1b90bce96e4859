import LoraBridge.Json.Token

/-! The tree of a JSON text before anything is read from it. Faults stay where
they stand, so that a reader walking the tree from left to right meets them in
the order of the text. -/
namespace LoraBridge.Json

/-- A value as it is written. A container that is not closed holds the fault
that ended it. -/
inductive Tree where
  | null
  | bool (b : Bool)
  | number (n : Numeral)
  | cutNumber
  | string (s : Quoted)
  | array (items : List Tree) (stop : Option Fault)
  | object (members : List (Quoted × Tree)) (stop : Option Fault)
  | fault (f : Fault)

/-- The fault met when a value is passed over without being read. -/
def Tree.skip? : Tree → Option Fault
  | .cutNumber => some .malformed
  | .string s => s.fault
  | .array _ stop => stop
  | .object _ stop => stop
  | .fault f => some f
  | .null | .bool _ | .number _ => none

/-- A whole text: its value, and whether anything stands behind it. -/
structure Document where
  root : Tree
  trailing : Bool

namespace Tree

/-- An open container; collected items and members are reversed. -/
inductive Frame where
  | array (items : List Tree)
  | object (members : List (Quoted × Tree)) (key : Quoted)

inductive Focus where
  | value
  | firstItem
  | firstKey
  | key
  | colon
  | next

/-- Close the open containers around a value that ends the text. -/
def unwind (v : Tree) (f : Fault) : List Frame → Document
  | [] => ⟨v, false⟩
  | .array items :: outer => unwind (.array (v :: items).reverse (some f)) f outer
  | .object ms k :: outer => unwind (.object ((k, v) :: ms).reverse (some f)) f outer

def abandon (f : Fault) : List Frame → Document
  | [] => ⟨.fault f, false⟩
  | .array items :: outer => unwind (.array items.reverse (some f)) f outer
  | .object ms _ :: outer => unwind (.object ms.reverse (some f)) f outer

def noKey : Quoted := ⟨[], none⟩

/-- Put a finished value into the innermost container and read on with `more`. -/
def place (v : Tree) (rest : List Token) (more : Focus → List Frame → Document) :
    List Frame → Document
  | [] => ⟨v, !rest.isEmpty⟩
  | .array items :: outer => more .next (.array (v :: items) :: outer)
  | .object ms k :: outer => more .next (.object ((k, v) :: ms) noKey :: outer)

def placeOrEnd (v : Tree) (rest : List Token) (more : Focus → List Frame → Document)
    (frames : List Frame) : Document :=
  match v.skip? with
  | some f => unwind v f frames
  | none => place v rest more frames

def value (t : Token) (rest : List Token) (more : Focus → List Frame → Document)
    (frames : List Frame) : Document :=
  match t with
  | .null => place .null rest more frames
  | .bool b => place (.bool b) rest more frames
  | .number n => place (.number n) rest more frames
  | .cutNumber => placeOrEnd .cutNumber rest more frames
  | .string s => placeOrEnd (.string s) rest more frames
  | .openArray => more .firstItem (.array [] :: frames)
  | .openObject => more .firstKey (.object [] noKey :: frames)
  | .fault f => unwind (.fault f) f frames
  | .closeArray | .closeObject | .comma | .colon => unwind (.fault .malformed) .malformed frames

def key (t : Token) (more : Focus → List Frame → Document) : List Frame → Document
  | .object ms _ :: outer =>
    match t with
    | .string s =>
      match s.fault with
      | some f => unwind (.fault f) f (.object ms s :: outer)
      | none => more .colon (.object ms s :: outer)
    | _ => abandon .malformed (.object ms noKey :: outer)
  | frames => abandon .malformed frames

def close (rest : List Token) (more : Focus → List Frame → Document) : List Frame → Document
  | .array items :: outer => place (.array items.reverse none) rest more outer
  | .object ms _ :: outer => place (.object ms.reverse none) rest more outer
  | [] => abandon .malformed []

/-- Build the tree of a list of tokens inside the open containers. -/
def build : List Token → Focus → List Frame → Document
  | [], .value, frames => unwind (.fault .truncated) .truncated frames
  | [], .colon, frames => unwind (.fault .truncated) .truncated frames
  | [], _, frames => abandon .truncated frames
  | t :: rest, focus, frames =>
    match focus, t with
    | .value, t => value t rest (build rest) frames
    | .firstItem, .closeArray => close rest (build rest) frames
    | .firstItem, t => value t rest (build rest) frames
    | .firstKey, .closeObject => close rest (build rest) frames
    | .firstKey, t => key t (build rest) frames
    | .key, t => key t (build rest) frames
    | .colon, .colon => build rest .value frames
    | .colon, _ => unwind (.fault .malformed) .malformed frames
    | .next, t =>
      match t, frames with
      | .comma, .array items :: outer => build rest .value (.array items :: outer)
      | .comma, .object ms k :: outer => build rest .key (.object ms k :: outer)
      | .closeArray, .array items :: outer => close rest (build rest) (.array items :: outer)
      | .closeObject, .object ms k :: outer => close rest (build rest) (.object ms k :: outer)
      | _, frames => abandon .malformed frames

end Tree

def Document.ofBytes (bytes : List UInt8) : Document :=
  Tree.build (tokens bytes) .value []

end LoraBridge.Json
