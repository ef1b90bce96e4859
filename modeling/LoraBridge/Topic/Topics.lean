import LoraBridge.Topic.Template

/-! The four topics of a gateway: one for each kind of envelope. -/
namespace LoraBridge.Topic

inductive Role where
  | uplink
  | downlink
  | stats
  | ack
deriving DecidableEq

def Role.name : Role → String
  | .uplink => "uplink"
  | .downlink => "downlink"
  | .stats => "stats"
  | .ack => "ack"

def Role.all : List Role := [.uplink, .downlink, .stats, .ack]

def Role.ofName? (s : String) : Option Role :=
  all.find? fun r => r.name == s

structure RoleError where
  role : Role
  cause : TemplateError
deriving DecidableEq

def RoleError.message (e : RoleError) : String :=
  s!"{e.role.name} topic template: {e.cause.message}"

structure Topics where
  uplink : Template
  downlink : Template
  stats : Template
  ack : Template
deriving DecidableEq

namespace Topics

/-- Check the template of a role and render it once; the topics of all gateways
have the same length. -/
def compile (role : Role) (source : String) : Except RoleError Template :=
  match Template.parse source with
  | .error e => .error ⟨role, e⟩
  | .ok t =>
    match t.render default with
    | .error e => .error ⟨role, e⟩
    | .ok _ => .ok t

def parse (uplink downlink stats ack : String) : Except RoleError Topics := do
  let uplink ← compile .uplink uplink
  let downlink ← compile .downlink downlink
  let stats ← compile .stats stats
  let ack ← compile .ack ack
  .ok ⟨uplink, downlink, stats, ack⟩

def template (t : Topics) : Role → Template
  | .uplink => t.uplink
  | .downlink => t.downlink
  | .stats => t.stats
  | .ack => t.ack

def render (t : Topics) (role : Role) (gateway : Eui) : Except RoleError String :=
  ((t.template role).render gateway).mapError fun e => ⟨role, e⟩

end Topics

end LoraBridge.Topic
