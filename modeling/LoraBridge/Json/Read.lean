import LoraBridge.Json.Error
import LoraBridge.Json.Tree
import LoraBridge.Timestamp

/-! Typed reading of JSON. A reader walks the tree from left to right and stops
at the first problem in the order of the text. Its first argument is the number
of containers that may still be opened. -/
namespace LoraBridge.Json

abbrev Reader (α : Type) := Nat → Tree → Except Error α

def malformed {α : Type} : Except Error α := .error (.fault .malformed)

def Fault.check (f : Option Fault) : Except Error Unit :=
  match f with
  | some f => .error (.fault f)
  | none => .ok ()

def charBytes (c : Char) : List UInt8 :=
  String.utf8EncodeChar c

/-- The bytes of the pieces of a string; a leading surrogate takes the trailing
one behind it. -/
def pieceBytes (fault : Option Fault) : List Piece → Except Error (List UInt8)
  | [] => do
    Fault.check fault
    .ok []
  | .byte b :: rest => (pieceBytes fault rest).map (b :: ·)
  | .unit n :: rest =>
    if n < 0xd800 || 0xdfff < n then
      (pieceBytes fault rest).map (charBytes (Char.ofNat n) ++ ·)
    else if 0xdbff < n then malformed
    else
      match rest with
      | [] => if fault = some .truncated then .error (.fault .truncated) else malformed
      | .unit m :: rest =>
        if 0xdc00 ≤ m && m ≤ 0xdfff then
          let c := Char.ofNat (0x10000 + (n - 0xd800) * 0x400 + (m - 0xdc00))
          (pieceBytes fault rest).map (charBytes c ++ ·)
        else malformed
      | .byte _ :: _ => malformed

def utf8? (bytes : List UInt8) : Option String :=
  String.fromUTF8? ⟨bytes.toArray⟩

def Quoted.read (s : Quoted) : Except Error String := do
  let bytes ← pieceBytes s.fault s.pieces
  match utf8? bytes with
  | some t => .ok t
  | none => malformed

def Numeral.read (n : Numeral) : Except Error Number :=
  match n.number? with
  | some x => .ok x
  | none => malformed

/-- What a tree holds, for a reader that wants something else. Scalars are read
first and may have problems of their own. -/
def Tree.found : Tree → Except Error Found
  | .null => .ok .null
  | .bool b => .ok (.bool b)
  | .number n => n.read.map .number
  | .cutNumber => .error (.fault .truncated)
  | .string s => s.read.map .string
  | .array _ _ => .ok .sequence
  | .object _ _ => .ok .map
  | .fault f => .error (.fault f)

/-- Refuse a tree where something else is expected. -/
def Tree.refuse {α : Type} (t : Tree) (expected : String) : Except Error α := do
  let found ← t.found
  .error (.mismatch (.wrongType found expected))

def readBool : Reader Bool := fun _ t =>
  match t with
  | .bool b => .ok b
  | t => t.refuse "a boolean"

def readString : Reader String := fun _ t =>
  match t with
  | .string s => s.read
  | t => t.refuse "a string"

def readInt (low high : Int) (expected : String) : Reader Int := fun _ t =>
  match t with
  | .number n => do
    match ← n.read with
    | .integer i =>
      if low ≤ i.val ∧ i.val ≤ high then .ok i.val
      else .error (.mismatch (.outOfRange i.val expected))
    | .float x => .error (.mismatch (.wrongType (.number (.float x)) expected))
  | t => t.refuse expected

def readUInt8 : Reader UInt8 := fun d t =>
  (readInt 0 255 "u8" d t).map fun n => UInt8.ofNat n.toNat

def readUInt16 : Reader UInt16 := fun d t =>
  (readInt 0 65535 "u16" d t).map fun n => UInt16.ofNat n.toNat

def readUInt32 : Reader UInt32 := fun d t =>
  (readInt 0 4294967295 "u32" d t).map fun n => UInt32.ofNat n.toNat

def readInt8 : Reader Int8 := fun d t =>
  (readInt (-128) 127 "i8" d t).map Int8.ofInt

def readInt32 : Reader Int32 := fun d t =>
  (readInt (-2147483648) 2147483647 "i32" d t).map Int32.ofInt

def readDouble : Reader Double := fun _ t =>
  match t with
  | .number n => do
    match ← n.read with
    | .integer i =>
      match Double.ofInt? i.val with
      | some x => .ok x
      | none => malformed
    | .float x => .ok x
  | t => t.refuse "f64"

def readOption {α : Type} (read : Reader α) : Reader (Option α) := fun d t =>
  match t with
  | .null => .ok none
  | t => (read d t).map some

def readText {α : Type} (parse : String → Except Mismatch α) : Reader α := fun d t => do
  let s ← readString d t
  match parse s with
  | .ok a => .ok a
  | .error m => .error (.mismatch m)

def readEui : Reader Eui :=
  readText fun s => (Eui.parse s).mapError .eui

def readBytes : Reader (List UInt8) :=
  readText fun s => (Text.Base64.decode s.toUTF8.toList).mapError .base64

def readTimestamp : Reader Timestamp := fun d t =>
  match t with
  | .string _ =>
    readText (fun s => match Timestamp.parse? s.toList with
      | some t => .ok t
      | none => .error .timestamp) d t
  | t => t.refuse "an RFC 3339 formatted date and time string"

/-- Read any value; the members of objects come out sorted by name, and of
several with one name the last stays. -/
def readValue : Reader Value
  | _, .null => .ok .null
  | _, .bool b => .ok (.bool b)
  | _, .number n => n.read.map Number.value
  | _, .cutNumber => .error (.fault .truncated)
  | _, .string s => s.read.map .string
  | _, .fault f => .error (.fault f)
  | 0, .array _ _ => malformed
  | 0, .object _ _ => malformed
  | d + 1, .array items stop => do
    let vs ← items.mapM (readValue d)
    Fault.check stop
    .ok (.array vs)
  | d + 1, .object ms stop => do
    let ms ← ms.mapM fun (k, v) => do
      let k ← k.read
      let v ← readValue d v
      .ok (k, v)
    Fault.check stop
    .ok (.object (Value.sortMembers ms))

def readMembers : Reader (List (String × Value)) := fun d t =>
  match t with
  | .object _ _ => do
    match ← readValue d t with
    | .object ms => .ok ms
    | _ => malformed
  | t => t.refuse "a map"

structure RecordField (σ : Type) where
  name : String
  optional : Bool
  isSet : σ → Bool
  read : Nat → Tree → σ → Except Error σ

/-- A record: its name, its fields in their order and what they add up to. -/
structure Record (σ α : Type) where
  name : String
  fields : List (RecordField σ)
  empty : σ
  finish : σ → Except Error α

/-- Read the members of an object. A known field may stand only once; the value
of an unknown one is passed over. -/
def readFields {σ : Type} (fields : List (RecordField σ)) (d : Nat) :
    List (Quoted × Tree) → σ → Except Error σ
  | [], acc => .ok acc
  | (k, v) :: rest, acc => do
    let name ← k.read
    match fields.find? fun f => f.name == name with
    | some f =>
      if f.isSet acc then .error (.mismatch (.duplicateField name))
      else
        let acc ← f.read d v acc
        readFields fields d rest acc
    | none =>
      Fault.check v.skip?
      readFields fields d rest acc

/-- Read the items of an array as fields in their order, counting them. -/
def readItems {σ : Type} (expected : String) (d : Nat) (stop : Option Fault) :
    Nat → List (RecordField σ) → List Tree → σ → Except Error σ
  | _, [], [], acc => do
    Fault.check stop
    .ok acc
  | _, [], _ :: _, _ => malformed
  | i, f :: fields, v :: items, acc => do
    let acc ← f.read d v acc
    readItems expected d stop (i + 1) fields items acc
  | i, f :: fields, [], acc => do
    Fault.check stop
    if f.optional then readItems expected d stop (i + 1) fields [] acc
    else .error (.mismatch (.tooShort i expected))

def Record.read {σ α : Type} (r : Record σ α) : Reader α := fun d t =>
  match d, t with
  | 0, .object _ _ => malformed
  | 0, .array _ _ => malformed
  | d + 1, .object ms stop => do
    let acc ← readFields r.fields d ms r.empty
    Fault.check stop
    r.finish acc
  | d + 1, .array items stop => do
    let noun := if r.fields.length = 1 then "element" else "elements"
    let expected := s!"struct {r.name} with {r.fields.length} {noun}"
    let acc ← readItems expected d stop 0 r.fields items r.empty
    r.finish acc
  | _, t => t.refuse s!"struct {r.name}"

def required {α : Type} (name : String) : Option α → Except Error α
  | some a => .ok a
  | none => .error (.mismatch (.missingField name))

def maxDepth : Nat := 127

def decode {α : Type} (read : Reader α) (bytes : List UInt8) : Except Error α := do
  let doc := Document.ofBytes bytes
  let a ← read maxDepth doc.root
  if doc.trailing then malformed else .ok a

end LoraBridge.Json
