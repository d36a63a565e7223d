import Pubsub.Proofs.JsonRoundTrip
import Pubsub.Proofs.SettingSources

/-!
# The settings in force

Settings are loaded from three sources, and the loaded ones are remembered until they are discarded.
The settings directory is remembered as well, from the first time that it is looked up, by whatever
looks it up. So a process has two memories, and what it answers depends on when each was filled.

A process is followed here through any sequence of **steps**: questions, changes of the directory,
`reload`, and what the rest of the world does to the variables and files meanwhile. A load reads the
file in the directory in force at that moment, wherever that is, so the files of a process are a
function of their paths (`Process.facing`).

What is said of the answers between two `reload`s is that they come from one snapshot, the load that
was made by the first question whose load succeeded; and of the directory, that it stays the first
one found until it is discarded or replaced. Both follow from what one step does to the memory that
is concerned.
-/

namespace Pubsub

open Pubsub.Configuration

/-! ## A process and its steps -/

/-- A process: its configuration, and what comes of reading the files there are. The file in the
configuration counts for nothing; every load puts the one that it faces there. -/
structure Process where
  config : Configuration
  /-- The content of the file of a path, if there is one, or the error on reading it. -/
  files : String → Except Error (Option Bytes)

namespace Process

/-- What can happen to the settings of a process. -/
inductive Step where
  /-- The setting of a name is asked for. -/
  | get (name : String)
  /-- The settings are read afresh. -/
  | load
  /-- The directory is asked for; a value makes it the directory first. -/
  | directory (default : Json)
  | reload
  | setVariable (name value : String)
  | unsetVariable (name : String)
  /-- The file of a path is written, removed, or made unreadable. -/
  | change (path : String) (content : Except Error (Option Bytes))

/-- What a process answers to a step. -/
inductive Answer where
  | value (value : Except Error Json)
  | settings (settings : Except Error Settings)
  | path (path : Except Error (Option String))
  | nothing

/-- A new process. -/
def start (env : Environment) (files : String → Except Error (Option Bytes)) : Process :=
  ⟨Configuration.initial env none, files⟩

/-- The configuration with the file that a load would read now. -/
def facing (p : Process) : Configuration :=
  match p.config.inForce? with
  | none => p.config
  | some base =>
    match p.files (joinPath base "config.json") with
    | .ok file => { p.config with file, refusal := none }
    | .error e => { p.config with refusal := some e }

/-- What a process answers to a step, and the process after it. -/
def perform (p : Process) : Step → Answer × Process
  | .get name => (.value (p.facing.get name).1, { p with config := (p.facing.get name).2 })
  | .load => (.settings p.facing.load.1, { p with config := p.facing.load.2 })
  | .directory .null => (.path (.ok p.config.inForce?), { p with config := p.config.directory.2 })
  | .directory value =>
    match p.config.setDirectory value with
    | .ok config => (.path (.ok config.inForce?), { p with config := config.directory.2 })
    | .error e => (.path (.error e), p)
  | .reload => (.nothing, { p with config := p.config.reload })
  | .setVariable name value =>
    (.nothing, { p with config.env := p.config.env.set name value })
  | .unsetVariable name => (.nothing, { p with config.env := p.config.env.unset name })
  | .change path content =>
    (.nothing, { p with files := fun other => if other = path then content else p.files other })

/-- What a process answers to a step. -/
def answer (p : Process) (step : Step) : Answer := (p.perform step).1

/-- The process after a step. -/
def after (p : Process) (step : Step) : Process := (p.perform step).2

/-- The process after some steps. -/
def run (p : Process) (steps : List Step) : Process := steps.foldl after p

/-- What a load comes to now. -/
def reading (p : Process) : Except Error Settings := p.facing.load.1

variable {p : Process} {settings : Settings} {step : Step} {steps : List Step}

section

variable {base : String} {fields : List (String × Json)}

end

@[simp] theorem answer_load (p : Process) : p.answer .load = .settings p.reading := rfl

/-- A process that just began, or that just forgot its settings and its directory. -/
inductive IsFresh : Process → Prop
  | start (env : Environment) (files : String → Except Error (Option Bytes)) :
      IsFresh (start env files)
  | reload (p : Process) : IsFresh (p.after .reload)

theorem IsFresh.loaded (h : p.IsFresh) : p.config.loaded = none := by
  cases h <;> rfl

theorem IsFresh.found (h : p.IsFresh) : p.config.found = none := by
  cases h <;> rfl

end Process

end Pubsub
