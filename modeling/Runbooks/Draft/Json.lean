import Runbooks.Document.Json
import Runbooks.Draft

namespace Runbooks

namespace Environment

def json (e : Environment) : Json :=
  .object ([e.user.map fun s => ("user", Json.string s),
    e.sshKey.map fun s => ("ssh_key", Json.string s),
    e.python.map fun s => ("python", Json.string s),
    e.become.map fun b => ("become", Json.bool b)].filterMap id)

end Environment

namespace HostDraft

def json (d : HostDraft) : Json :=
  .object [("addr", .ofOption .string d.address), ("env", .ofOption Environment.json d.environment)]

end HostDraft

namespace StepDraft

def json (d : StepDraft) : Json :=
  .object [("name", .ofOption .string d.name), ("command", .ofOption .string d.command),
    ("become", .ofOption .bool d.become), ("stdin", .ofOption .string d.stdin),
    ("msg", .ofOption .string d.message), ("loop", .ofOption .string d.loop)]

end StepDraft

namespace Draft

def json (d : Draft) : Json :=
  .object [("name", .ofOption .string d.name), ("description", .ofOption .string d.description),
    ("debug", .ofOption .bool d.debug), ("env", d.environment.json),
    ("hosts", .array (d.hosts.map HostDraft.json)),
    ("steps", .array (d.steps.map StepDraft.json))]

end Draft

end Runbooks
