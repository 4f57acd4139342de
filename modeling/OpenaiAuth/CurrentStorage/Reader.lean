import Mathlib.Data.Rat.Defs
import Mathlib.Data.List.Basic
import Mathlib.Tactic.Common

/-! # The shared read of the account storage

`createCurrentStorageReader` keeps one snapshot of the account file behind a
`stat`: a call whose file still has the stamp of the snapshot is answered at
once, any other starts a read. Reads end in any order; only the newest one that
has ended is published, and a read that ends later than a newer one is answered
with what was published. The reader is generic in what it reads; the system around
it reads values that carry the path they were read of and when their read began.
-/

namespace CurrentStorage

/-! ## The reader -/

structure StorageFileStamp where
  mtimeMs : ℚ
  size : ℕ
deriving DecidableEq, Repr

section Reader

variable {T : Type}

structure Cached (T : Type) where
  stamp : StorageFileStamp
  path : String
  value : T

/-- The variables of `createCurrentStorageReader`; `publishedValue` is `none` while
`hasPublishedValue` is false. -/
structure CurrentStorageReader (T : Type) where
  cache : Option (Cached T) := none
  readGeneration : ℕ := 0
  publishedGeneration : ℕ := 0
  publishedValue : Option T := none

/-- What a call for a path with this stamp finds in the cache. -/
def CurrentStorageReader.hit (reader : CurrentStorageReader T) (path : String)
    (stamp : Option StorageFileStamp) : Option (Cached T) :=
  reader.cache.filter fun cached => cached.path = path ∧ stamp = some cached.stamp

/-- `read()` up to its first wait, where the cache does not answer it. -/
def CurrentStorageReader.startRead (reader : CurrentStorageReader T)
    (stamp : Option StorageFileStamp) : CurrentStorageReader T :=
  { reader with
    cache := if stamp.isSome then reader.cache else none
    readGeneration := reader.readGeneration + 1 }

/-- The last part of `read()`: its read, or the fallback, has given a value. -/
def CurrentStorageReader.publish (reader : CurrentStorageReader T) (generation : ℕ)
    (path : String) (stamp : Option StorageFileStamp) (value : T) : CurrentStorageReader T :=
  if reader.publishedGeneration < generation then
    { reader with
      publishedGeneration := generation
      publishedValue := some value
      cache := match stamp with
        | some stamp => some ⟨stamp, path, value⟩
        | none => reader.cache }
  else reader

/-- What the same call of `read()` returns. -/
def CurrentStorageReader.result (reader : CurrentStorageReader T) (generation : ℕ)
    (value : T) : T :=
  if reader.publishedGeneration < generation then value
  else reader.publishedValue.getD value

def CurrentStorageReader.invalidate (reader : CurrentStorageReader T) :
    CurrentStorageReader T :=
  { reader with cache := none }

end Reader

/-! ## The reader among its callers -/

/-- What a read gives: the file it was read of, when that read began, what was in it. -/
structure Stored (T : Type) where
  source : String
  began : ℕ
  contents : T

/-- A call of `read()` that waits. It reads `source` since `began`: its own path since
it was called, or the path of the time its fallback began. -/
structure ReadCall where
  generation : ℕ
  path : String
  stamp : Option StorageFileStamp
  asked : ℕ
  source : String
  began : ℕ
  fellBack : Bool := false

structure Answer (T : Type) where
  path : String
  asked : ℕ
  value : Stored T

/-- The reader, the path the configuration names, the stamps on the disk, the calls
that wait, and what has happened so far: the calls whose values `onRead` was given,
oldest first, the answers and the times of the invalidations. -/
structure System (T : Type) where
  path : String
  stamps : String → Option StorageFileStamp
  clock : ℕ := 0
  reader : CurrentStorageReader (Stored T) := {}
  waiting : List ReadCall := []
  handed : List ReadCall := []
  answers : List (Answer T) := []
  invalidations : List ℕ := []

/-- A file is `written` whenever its stamp changes; what only changes the state file
beside it is no event of its own. A read that `finished` found these contents. -/
inductive Event (T : Type) where
  | pathChanged (path : String)
  | written (path : String) (stamp : Option StorageFileStamp)
  | read
  | invalidate
  | fellBack (generation : ℕ)
  | finished (generation : ℕ) (contents : T)
  | rejected (generation : ℕ)

namespace System

variable {T : Type} (s : System T)

def stamp : Option StorageFileStamp := s.stamps s.path

def call (generation : ℕ) : Option ReadCall :=
  s.waiting.find? fun call => call.generation = generation

def without (generation : ℕ) : List ReadCall :=
  s.waiting.filter fun call => call.generation ≠ generation

/-- `read()`: the stamp is taken at the call. -/
def read : System T :=
  match s.reader.hit s.path s.stamp with
  | some cached => { s with answers := ⟨s.path, s.clock, cached.value⟩ :: s.answers }
  | none =>
      let reader := s.reader.startRead s.stamp
      { s with
        reader := reader
        waiting := ⟨reader.readGeneration, s.path, s.stamp, s.clock, s.path, s.clock, false⟩ ::
          s.waiting }

/-- The read of a call has failed, and its fallback starts to read the path of now. -/
def fallback (generation : ℕ) (call : ReadCall) : ReadCall :=
  if call.generation = generation then
    { call with source := s.path, began := s.clock, fellBack := true }
  else call

/-- The read of a call, or of its fallback, has ended. -/
def finish (call : ReadCall) (contents : T) : System T :=
  let value : Stored T := ⟨call.source, call.began, contents⟩
  { s with
    reader := s.reader.publish call.generation call.path call.stamp value
    waiting := s.without call.generation
    handed := if s.reader.publishedGeneration < call.generation then s.handed ++ [call]
      else s.handed
    answers := ⟨call.path, call.asked, s.reader.result call.generation value⟩ :: s.answers }

def tick : System T := { s with clock := s.clock + 1 }

/-- What an event makes of a state; `none` where it cannot happen. -/
def step (s : System T) : Event T → Option (System T)
  | .pathChanged path => some { s with path := path }.tick
  | .written path stamp => some { s with stamps := Function.update s.stamps path stamp }.tick
  | .read => some s.read.tick
  | .invalidate => some
      { s with
        reader := s.reader.invalidate
        invalidations := s.clock :: s.invalidations }.tick
  | .fellBack generation =>
      match s.call generation with
      | some call =>
          if call.fellBack then none
          else some { s with waiting := s.waiting.map (s.fallback generation) }.tick
      | none => none
  | .finished generation contents => (s.call generation).map fun call => (s.finish call contents).tick
  | .rejected generation => (s.call generation).map fun _ =>
      { s with waiting := s.without generation }.tick

def initial (path : String) (stamps : String → Option StorageFileStamp) : System T :=
  { path := path, stamps := stamps }

end System

/-- The runs of the system, each with its steps: the state before and the event. -/
inductive Run {T : Type} : List (System T × Event T) → System T → Prop
  | start (path : String) (stamps : String → Option StorageFileStamp) :
      Run [] (System.initial path stamps)
  | step {steps : List (System T × Event T)} {s t : System T} {e : Event T} :
      Run steps s → s.step e = some t → Run (steps ++ [(s, e)]) t

end CurrentStorage
