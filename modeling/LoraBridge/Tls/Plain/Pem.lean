import LoraBridge.Text.Base64

/-! PEM texts: sections of base64 between a line that begins them and a line that
ends them. Lines outside sections are comments. -/
namespace LoraBridge.Tls.Plain.Pem

inductive Kind where
  | certificate
  | publicKey
  | rsaKey
  | privateKey
  | ecKey
  | revocationList
  | request
deriving DecidableEq

def kinds : List (String × Kind) :=
  [("CERTIFICATE", .certificate), ("PUBLIC KEY", .publicKey), ("RSA PRIVATE KEY", .rsaKey),
   ("PRIVATE KEY", .privateKey), ("EC PRIVATE KEY", .ecKey), ("X509 CRL", .revocationList),
   ("CERTIFICATE REQUEST", .request)]

structure Section where
  kind : Kind
  content : List UInt8
deriving DecidableEq

inductive Error where
  | illegalStart
  | missingEnd
  | notBase64
deriving DecidableEq

def Error.message : Error → String
  | .illegalStart => "illegal section start"
  | .missingEnd => "section end missing"
  | .notBase64 => "section is not base64"

def ascii (s : String) : List UInt8 :=
  s.toUTF8.toList

/-- Cut a text into lines, each with the line feed or carriage return that ends it. -/
def lines : List UInt8 → List (List UInt8)
  | [] => []
  | b :: bs =>
    if b = 10 || b = 13 then [b] :: lines bs
    else
      match lines bs with
      | [] => [[b]]
      | l :: ls => (b :: l) :: ls

def isTrailing (b : UInt8) : Bool :=
  b == 10 || b == 13 || b == 32

def label? (line : List UInt8) : Option (Except Error (List UInt8)) :=
  let start := ascii "-----BEGIN "
  if start.isPrefixOf line then
    let ending := line.reverse.takeWhile fun b => b == 45 || isTrailing b
    if ending.count 45 = 5 then
      let dashes := ending.reverse.dropWhile isTrailing
      some (.ok ((line.take (line.length - dashes.length)).drop start.length))
    else some (.error .illegalStart)
  else none

def endMark (label : List UInt8) : List UInt8 :=
  ascii "-----END " ++ label ++ ascii "-----"

def isSpace (b : UInt8) : Bool :=
  b == 32 || (9 ≤ b && b ≤ 13)

def symbols? : List UInt8 → Option (List UInt8)
  | a :: b :: c :: d :: e :: rest => do
    let a ← Text.Base64.sextet? a
    let b ← Text.Base64.sextet? b
    let c ← Text.Base64.sextet? c
    let d ← Text.Base64.sextet? d
    let bytes ← symbols? (e :: rest)
    some (Text.Base64.quad a b c d ++ bytes)
  | last => do
    let body := last.takeWhile (· != 61)
    let pads := last.drop body.length
    let ns ← body.mapM Text.Base64.sextet?
    if !pads.all (· == 61) || (!pads.isEmpty && last.length ≠ 4) then none
    match ns with
    | [] => if pads.isEmpty then some [] else none
    | [a, b] => some ((Text.Base64.quad a b 0 0).take 1)
    | [a, b, c] => some ((Text.Base64.quad a b c 0).take 2)
    | [a, b, c, d] => some (Text.Base64.quad a b c d)
    | _ => none

/-- Read the sections of lines. An open section has its label, and the lines of all
sections that were begun since the last end add up. -/
def read (begun : Option (List UInt8)) (body : List UInt8) :
    List (List UInt8) → List Section × Option Error
  | [] => ([], if begun.isSome then some .missingEnd else none)
  | line :: rest =>
    match label? line with
    | some (.ok label) => read (some label) body rest
    | some (.error e) => ([], some e)
    | none =>
      match begun with
      | none => read none body rest
      | some label =>
        if (endMark label).isPrefixOf line then
          match kinds.find? fun k => ascii k.1 == label with
          | none => read none [] rest
          | some k =>
            match symbols? (body.filter fun b => !isSpace b) with
            | none => ([], some .notBase64)
            | some content =>
              let (more, e) := read none [] rest
              (⟨k.2, content⟩ :: more, e)
        else read (some label) (body ++ line) rest

def sections (text : List UInt8) : List Section × Option Error :=
  read none [] (lines text)

end LoraBridge.Tls.Plain.Pem
