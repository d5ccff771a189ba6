import Runbooks.Document.Record
import Runbooks.Draft

namespace Runbooks

namespace Environment

def schema : Schema :=
  [⟨"user", none⟩, ⟨"ssh_key", some "ssh_key_path"⟩, ⟨"python", some "python_interpreter"⟩,
    ⟨"become", none⟩]

def ofTree? (t : Tree) : Option Environment := do
  let r ← Record.ofTree? schema false t
  return {
    user := ← r.optional? Tree.text? "user"
    sshKey := ← r.optional? Tree.text? "ssh_key"
    python := ← r.optional? Tree.text? "python"
    become := ← r.optional? Tree.flag? "become" }

end Environment

namespace HostDraft

def schema : Schema :=
  [⟨"addr", some "address"⟩, ⟨"env", some "environment"⟩]

def ofTree? (t : Tree) : Option HostDraft := do
  let r ← Record.ofTree? schema false t
  return {
    address := ← r.optional? Tree.text? "addr"
    environment := ← r.optional? Environment.ofTree? "env" }

end HostDraft

namespace StepDraft

def schema : Schema :=
  [⟨"name", none⟩, ⟨"command", none⟩, ⟨"become", none⟩, ⟨"stdin", none⟩,
    ⟨"msg", some "message"⟩, ⟨"loop", none⟩]

def ofTree? (t : Tree) : Option StepDraft := do
  let r ← Record.ofTree? schema false t
  return {
    name := ← r.optional? Tree.text? "name"
    command := ← r.optional? Tree.text? "command"
    become := ← r.optional? Tree.flag? "become"
    stdin := ← r.optional? Tree.text? "stdin"
    message := ← r.optional? Tree.text? "msg"
    loop := ← r.optional? Tree.text? "loop" }

end StepDraft

namespace Draft

def schema : Schema :=
  [⟨"name", none⟩, ⟨"description", none⟩, ⟨"debug", none⟩, ⟨"env", some "environment"⟩,
    ⟨"hosts", none⟩, ⟨"steps", none⟩]

def ofTree? (t : Tree) : Option Draft := do
  let r ← Record.ofTree? schema false t
  return {
    name := ← r.optional? Tree.text? "name"
    description := ← r.optional? Tree.text? "description"
    debug := ← r.optional? Tree.flag? "debug"
    environment := ← r.withDefault? Environment.ofTree? {} "env"
    hosts := ← r.withDefault? (Tree.items? · >>= (·.mapM HostDraft.ofTree?)) [] "hosts"
    steps := ← r.withDefault? (Tree.items? · >>= (·.mapM StepDraft.ofTree?)) [] "steps" }

end Draft

end Runbooks
