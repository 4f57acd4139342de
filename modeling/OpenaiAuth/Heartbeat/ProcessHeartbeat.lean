import OpenaiAuth.Js.Table

/-! # Process heartbeats

A plugin process leaves `<pid>.json` in a shared directory while it runs: its version, and for
each OpenCode config folder it resolved where it keeps that folder's files. Several plugin
instances share the file, and several copies of the bundle may be loaded; the owner count
lives in each copy, the layouts on the global object.

A call runs up to its first `await` at once; what it does to the files from there on is fixed
then, as every file operation succeeds. Another process reads the file in `migrationFenceOpen`.
-/

namespace Heartbeat

open Js

/-! ## The process -/

inductive ProcessLayout where
  | legacy
  | stateHome
deriving DecidableEq, Repr

structure ProcessHeartbeat where
  pid : ℕ
  version : String
  startedAt : ℤ
  layouts : Table ProcessLayout
deriving DecidableEq

/-- `<pid>.json`, or `0<pid>.json` for pre-layout generations. -/
inductive Target where
  | canonical
  | legacy
deriving DecidableEq, Repr

inductive FileOp where
  | mkdir
  | chmod
  | rm (target : Target)
  /-- to the target's temporary name -/
  | writeFile (target : Target) (heartbeat : ProcessHeartbeat)
  | rename (target : Target) (heartbeat : ProcessHeartbeat)
deriving DecidableEq

/-- A call of this module, with the file operations it has not done yet; `records` is the folder
whose legacy layout it was called to record. -/
structure Call where
  records : Option String
  ops : List FileOp
deriving DecidableEq

/-- The handle of a `startProcessHeartbeat` of one copy. -/
structure Handle (κ : Type) where
  copy : κ
  released : Bool
deriving DecidableEq, Repr

/-- The process, with the copies `κ` of the bundle, and its files. -/
structure State (κ : Type) where
  pid : ℕ
  /-- `hasLegacyRuntimeGeneration()`, which no longer changes once a copy is loaded -/
  legacyGeneration : Bool
  liveOwners : κ → ℕ := fun _ => 0
  processStartedAt : κ → Option ℤ := fun _ => none
  processLayouts : Table ProcessLayout := .empty
  handles : List (Handle κ) := []
  calls : List Call := []
  file : Option ProcessHeartbeat := none
  legacyFile : Option ProcessHeartbeat := none

section Process

variable {κ : Type} [DecidableEq κ]

/-- A sentinel blocks moves for every folder where an older generation ran. -/
def State.layoutsRecord (s : State κ) : Table ProcessLayout :=
  if s.legacyGeneration then s.processLayouts.set "*" .legacy else s.processLayouts

def State.holdsLegacyLayout (s : State κ) : Bool :=
  s.legacyGeneration || s.processLayouts.entries.any (·.2 = .legacy)

/-- `writeHeartbeatFile` -/
def State.writeHeartbeatFile (s : State κ) (heartbeat : ProcessHeartbeat) : List FileOp :=
  let targets := if s.legacyGeneration then [Target.legacy, .canonical] else [.canonical]
  [.mkdir, .chmod] ++ (if s.legacyGeneration then [] else [.rm .legacy]) ++
    targets.flatMap fun target => [.writeFile target heartbeat, .rename target heartbeat]

/-- `processStartedAt ??= now()` -/
def State.startedAt (s : State κ) (copy : κ) (now : ℤ) : ℤ := (s.processStartedAt copy).getD now

def State.heartbeat (s : State κ) (copy : κ) (version : String) (now : ℤ) : ProcessHeartbeat :=
  { pid := s.pid, version := version, startedAt := s.startedAt copy now, layouts := s.layoutsRecord }

def State.startProcessHeartbeat (s : State κ) (copy : κ) (version : String) (now : ℤ) : State κ :=
  { s with
    processStartedAt := Function.update s.processStartedAt copy (some (s.startedAt copy now))
    liveOwners := Function.update s.liveOwners copy (s.liveOwners copy + 1)
    handles := s.handles ++ [⟨copy, false⟩]
    calls := s.calls ++ [⟨none, s.writeHeartbeatFile (s.heartbeat copy version now)⟩] }

/-- `release` of the `n`-th handle. -/
def State.release (s : State κ) (n : ℕ) (handle : Handle κ) : State κ :=
  if handle.released then { s with calls := s.calls ++ [⟨none, []⟩] }
  else
    let owners := s.liveOwners handle.copy - 1
    let ops := if 0 < owners then [] else if s.holdsLegacyLayout then [] else [.rm .canonical]
    { s with
      liveOwners := Function.update s.liveOwners handle.copy owners
      handles := s.handles.set n { handle with released := true }
      calls := s.calls ++ [⟨none, ops⟩] }

def State.recordProcessLayout (s : State κ) (copy : κ) (key : String) (layout : ProcessLayout)
    (version : String) (now : ℤ) : State κ :=
  let layout := if s.legacyGeneration then .legacy else layout
  let s := { s with processLayouts := s.processLayouts.set key layout }
  if layout ≠ .legacy then { s with calls := s.calls ++ [⟨none, []⟩] }
  else
    { s with
      processStartedAt := Function.update s.processStartedAt copy (some (s.startedAt copy now))
      calls := s.calls ++ [⟨some key, s.writeHeartbeatFile (s.heartbeat copy version now)⟩] }

/-- What one file operation does. -/
def State.perform (s : State κ) : FileOp → State κ
  | .rm .canonical => { s with file := none }
  | .rm .legacy => { s with legacyFile := none }
  | .rename .canonical heartbeat => { s with file := some heartbeat }
  | .rename .legacy heartbeat => { s with legacyFile := some heartbeat }
  | .mkdir | .chmod | .writeFile _ _ => s

inductive Event (κ : Type) where
  | start (copy : κ) (version : String) (now : ℤ)
  | release (handle : ℕ)
  | record (copy : κ) (key : String) (layout : ProcessLayout) (version : String) (now : ℤ)
  /-- the next file operation of a call -/
  | advance (call : ℕ)

def State.step (s : State κ) : Event κ → Option (State κ)
  | .start copy version now => some (s.startProcessHeartbeat copy version now)
  | .release n => (s.handles[n]?).map (s.release n)
  | .record copy key layout version now => some (s.recordProcessLayout copy key layout version now)
  | .advance n =>
      match s.calls[n]? with
      | some ⟨records, op :: ops⟩ =>
          some { s.perform op with calls := s.calls.set n ⟨records, ops⟩ }
      | _ => none

/-- The events one after the other. -/
def State.run (s : State κ) (events : List (Event κ)) : Option (State κ) :=
  events.foldlM State.step s

end Process

/-! ## The reader -/

/-- What `migrationFenceOpen` knows of the machine, and what it is asked. -/
structure Fence where
  selfPid : ℕ
  currentVersion : String
  layoutMove : Bool
  /-- a process that started earlier did so before the last boot -/
  staleBefore : ℤ
  isAlive : ℕ → Bool
  compareVersions : String → String → Option ℤ

/-- Whether the file of the process `pid` keeps the fence shut. -/
def Fence.blocks (fence : Fence) (pid : ℕ) : Option ProcessHeartbeat → Bool
  | none => false
  | some heartbeat =>
      let readable := heartbeat.pid = pid
      if pid = fence.selfPid then false
      else if readable && heartbeat.startedAt < fence.staleBefore then false
      else if !fence.isAlive pid then false
      else if !readable then true
      else
        match fence.compareVersions heartbeat.version fence.currentVersion with
        | none => true
        | some order =>
            order < 0 || (fence.layoutMove && heartbeat.layouts.entries.any (·.2 = .legacy))

end Heartbeat
