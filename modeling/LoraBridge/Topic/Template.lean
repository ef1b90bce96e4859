import LoraBridge.Eui

/-! Topic templates. A template holds one action that stands for the gateway; it
is checked once, and rendered for every publish and subscribe. -/
namespace LoraBridge.Topic

def maxBytes : Nat := 65535

inductive TemplateError where
  | empty
  | unterminated (template : String)
  | undefinedField (field : String)
  | substitutionCount (n : Nat)
  | wildcard (c : Char)
  | tooLong (bytes : Nat)
deriving DecidableEq

def TemplateError.message : TemplateError → String
  | .empty => "topic template is empty"
  | .unterminated t => s!"unterminated action in topic template '{t}'"
  | .undefinedField f =>
    s!"topic template references undefined field '{f}', only .MAC is available"
  | .substitutionCount n =>
    "topic template must contain exactly one \x7b\x7b .MAC \x7d\x7d substitution, found " ++
      toString n
  | .wildcard c => s!"topic template contains MQTT wildcard '{c}'"
  | .tooLong n => s!"rendered topic is {n} bytes, exceeding the MQTT limit of {maxBytes}"

/-- The texts before and after the first closing braces; a line feed before
them leaves the action open. -/
def closing? : List Char → Option (List Char × List Char)
  | [] => none
  | [_] => none
  | c :: d :: r =>
    if c = '\x7d' ∧ d = '\x7d' then some ([], r)
    else if c = '\n' then none
    else (closing? (d :: r)).map fun p => (c :: p.1, p.2)

theorem length_of_closing? {cs inner rest : List Char} (h : closing? cs = some (inner, rest)) :
    rest.length < cs.length := by
  fun_induction closing? cs generalizing inner with
  | case1 => simp at h
  | case2 => simp at h
  | case3 =>
    obtain ⟨_, rfl⟩ := Prod.mk.inj (Option.some.inj h)
    simp only [List.length_cons]
    omega
  | case4 => simp at h
  | case5 c d r _ _ ih =>
    obtain ⟨p, hp, he⟩ := Option.map_eq_some_iff.1 h
    cases he
    have := ih hp
    simp at this ⊢
    omega

/-- Cut a template at its actions: the text before the first, and for each its
inside and the text up to the next. -/
def split (cs : List Char) : List Char × List (List Char × List Char) :=
  match cs with
  | [] => ([], [])
  | [c] => ([c], [])
  | c :: d :: r =>
    if c = '\x7b' ∧ d = '\x7b' then
      match _h : closing? r with
      | some (inner, rest) =>
        let (literal, more) := split rest
        ([], (inner, literal) :: more)
      | none =>
        let (literal, more) := split (d :: r)
        (c :: literal, more)
    else
      let (literal, more) := split (d :: r)
      (c :: literal, more)
termination_by cs.length
decreasing_by
  · have := length_of_closing? _h; simp; omega
  · simp
  · simp

def hasOpening : List Char → Bool
  | c :: d :: r => (c == '\x7b' && d == '\x7b') || hasOpening (d :: r)
  | _ => false

def isWildcard (c : Char) : Bool :=
  c == '+' || c == '#'

def gatewayField : List Char := ['.', 'M', 'A', 'C']

/-- A template that was accepted, and the texts around its action. -/
structure Template where
  source : String
  before : String
  after : String
deriving DecidableEq

namespace Template

def parse (source : String) : Except TemplateError Template :=
  let cs := source.toList
  if (Text.trim cs).isEmpty then .error .empty else
  let (before, actions) := split cs
  match actions.find? fun a => Text.trim a.1 != gatewayField with
  | some a => .error (.undefinedField (String.ofList (Text.trim a.1)))
  | none =>
    if hasOpening before || actions.any (fun a => hasOpening a.2) then
      .error (.unterminated source)
    else
      match actions with
      | [(_, after)] =>
        match cs.find? isWildcard with
        | some c => .error (.wildcard c)
        | none => .ok ⟨source, String.ofList before, String.ofList after⟩
      | actions => .error (.substitutionCount actions.length)

def render (t : Template) (gateway : Eui) : Except TemplateError String :=
  let topic := t.before ++ gateway.text ++ t.after
  if topic.utf8ByteSize ≤ maxBytes then .ok topic else .error (.tooLong topic.utf8ByteSize)

end Template

end LoraBridge.Topic
