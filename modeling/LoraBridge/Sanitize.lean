import LoraBridge.Text.Blank

/-! Hiding secrets in error texts before they are logged or returned: the values
of secret keywords, the credentials of URLs, and whatever makes a text too long. -/
namespace LoraBridge.Sanitize

/-- Go through a text from left to right. Where the rule applies, its replacement is
written and the text goes on behind what the rule used up; elsewhere one
character is kept. -/
def replaceAll (rule : List Char → Option (List Char × List Char)) (cs : List Char) : List Char :=
  match cs with
  | [] => []
  | c :: r =>
    match rule (c :: r) with
    | some (out, rest) =>
      if rest.length ≤ r.length then out ++ replaceAll rule rest else c :: replaceAll rule r
    | none => c :: replaceAll rule r
termination_by cs.length
decreasing_by all_goals (simp only [List.length_cons]; omega)

def mask : List Char := ['*', '*', '*']

def keywords : List (List Char) :=
  [['p', 'a', 's', 's', 'w', 'o', 'r', 'd'], ['p', 'a', 's', 's', 'w', 'd'],
   ['t', 'o', 'k', 'e', 'n'], ['k', 'e', 'y'], ['s', 'e', 'c', 'r', 'e', 't']]

/-- Whether a character is a case variant of a lowercase ASCII letter. Two letters
outside ASCII are such variants: the long s and the kelvin sign. -/
def isCaseOf (letter c : Char) : Bool :=
  c.toLower == letter || (letter == 's' && c == '\u017f') || (letter == 'k' && c == '\u212a')

/-- The text of a word in any case at the front, and the text behind it. -/
def word? : List Char → List Char → Option (List Char × List Char)
  | [], cs => some ([], cs)
  | w :: ws, c :: cs => if isCaseOf w c then (word? ws cs).map fun p => (c :: p.1, p.2) else none
  | _ :: _, [] => none

def isSeparator (c : Char) : Bool :=
  c == '=' || c == ':'

def value? : List Char → Option (List Char)
  | [] => none
  | c :: cs =>
    let value := cs.dropWhile Text.isBlank
    if isSeparator c && !value.isEmpty then some (value.dropWhile fun c => !Text.isBlank c)
    else none

def secret? (cs : List Char) : Option (List Char × List Char) :=
  keywords.findSome? fun w => (word? w cs).bind fun p => (value? p.2).map fun rest => (p.1, rest)

def maskSecrets : List Char → List Char :=
  replaceAll fun cs => (secret? cs).map fun p => (p.1 ++ '=' :: mask, p.2)

def isLower (c : Char) : Bool :=
  'a' ≤ c && c ≤ 'z'

def isSchemeChar (c : Char) : Bool :=
  isLower c || c.isDigit || c == '+' || c == '.' || c == '-'

def isCredential (c : Char) : Bool :=
  c != '/' && c != '@' && !Text.isBlank c

def credentials? (cs : List Char) : Option (List Char) :=
  match cs.dropWhile isCredential with
  | '@' :: rest => if (cs.takeWhile isCredential).isEmpty then none else some rest
  | _ => none

def url? (cs : List Char) : Option (List Char × List Char) :=
  match cs with
  | c :: r =>
    if isLower c then
      match r.dropWhile isSchemeChar with
      | ':' :: '/' :: '/' :: rest =>
        (credentials? rest).map fun behind => (c :: r.takeWhile isSchemeChar, behind)
      | _ => none
    else none
  | [] => none

def maskUrls : List Char → List Char :=
  replaceAll fun cs => (url? cs).map fun p => (p.1 ++ ':' :: '/' :: '/' :: mask ++ ['@'], p.2)

def maxBytes : Nat := 500

def cutMark : List Char := "...[truncated]".toList

def byteCount : List Char → Nat
  | [] => 0
  | c :: cs => c.utf8Size + byteCount cs

/-- The longest front of a text within a number of bytes. -/
def takeBytes : Nat → List Char → List Char
  | _, [] => []
  | n, c :: cs => if c.utf8Size ≤ n then c :: takeBytes (n - c.utf8Size) cs else []

def isBoundary : List Char → Nat → Bool
  | _, 0 => true
  | [], _ + 1 => false
  | c :: cs, n + 1 => c.utf8Size ≤ n + 1 && isBoundary cs (n + 1 - c.utf8Size)

/-- Go back from a number of bytes to a boundary. There is nothing to go back to below
zero. -/
def boundary? (cs : List Char) : Nat → Option Nat
  | 0 => if isBoundary cs 0 then some 0 else none
  | n + 1 => if isBoundary cs (n + 1) then some (n + 1) else boundary? cs n

def truncate (cs : List Char) : List Char :=
  if byteCount cs ≤ maxBytes then cs
  else
    let cut := (boundary? cs (maxBytes - byteCount cutMark)).getD 0
    takeBytes cut cs ++ cutMark

/-- Mask what is secret in a text, then cut it. -/
def chars (cs : List Char) : List Char :=
  truncate (maskUrls (maskSecrets cs))

end Sanitize

def sanitize (message : String) : String :=
  String.ofList (Sanitize.chars message.toList)

end LoraBridge
