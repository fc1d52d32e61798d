/-
  The keywords of build instructions. A keyword that no builder knows is kept by its name.
-/
import Drydock.Text.Basic

namespace Drydock

/-- What an instruction does; `base` is the keyword that opens a build stage. -/
inductive Opcode where
  | add
  | arg
  | cmd
  | copy
  | entrypoint
  | env
  | expose
  | base
  | healthcheck
  | label
  | maintainer
  | onbuild
  | run
  | shell
  | stopsignal
  | user
  | volume
  | workdir
  | other (name : Text)
deriving DecidableEq, Repr

namespace Opcode

/-- The keyword of an opcode, in capital letters. -/
def name : Opcode → Text
  | add => "ADD"
  | arg => "ARG"
  | cmd => "CMD"
  | copy => "COPY"
  | entrypoint => "ENTRYPOINT"
  | env => "ENV"
  | expose => "EXPOSE"
  | base => "FROM"
  | healthcheck => "HEALTHCHECK"
  | label => "LABEL"
  | maintainer => "MAINTAINER"
  | onbuild => "ONBUILD"
  | run => "RUN"
  | shell => "SHELL"
  | stopsignal => "STOPSIGNAL"
  | user => "USER"
  | volume => "VOLUME"
  | workdir => "WORKDIR"
  | other name => name

/-- The opcodes that builders know. -/
def known : List Opcode :=
  [add, arg, cmd, copy, entrypoint, env, expose, base, healthcheck, label, maintainer, onbuild, run,
    shell, stopsignal, user, volume, workdir]

/-- Whether builders know the opcode. -/
def isKnown : Opcode → Bool
  | other _ => false
  | _ => true

/-- The opcode of a keyword in capital letters. -/
def ofName (name : Text) : Opcode := (known.find? fun op => op.name = name).getD (.other name)

@[simp] theorem name_ofName (name : Text) : (ofName name).name = name := by
  rw [ofName]
  cases h : known.find? fun op => op.name = name with
  | none => rfl
  | some op => simpa using List.find?_some h

/-- Whether a body of lines may follow the instruction. -/
def takesHeredoc (op : Opcode) : Bool := op = run || op = copy || op = add

/-- Whether the instruction copies files into the image. -/
def copiesFiles (op : Opcode) : Bool := op = copy || op = add

/-- Whether the instruction says what a container executes. -/
def isEntry (op : Opcode) : Bool := op = cmd || op = entrypoint

end Opcode

end Drydock
