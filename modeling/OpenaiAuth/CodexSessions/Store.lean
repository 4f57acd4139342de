import Mathlib.Logic.Function.Basic
import OpenaiAuth.Js.Table

/-! # The saved Codex sessions

`CodexSessionStore` keeps each session's thread id, and saves the sessions its process
created and deleted to a file that several processes share. A save takes the file's
lock, reads the file again, and replaces it by a rename. What is awaited cuts a save
into steps; the file holds the thread id of each session, `none` when it is absent.
The WebSocket frame turns, which are never saved, are left out.
-/

namespace CodexSessions

open Js

/-! ## The store of a process -/

/-- `ref` tells two objects apart. -/
structure CodexSessionMetadata where
  threadID : String
  turnID : String
  windowID : String
  ref : ℕ
deriving DecidableEq, Repr

/-- The changes that one save takes. -/
structure Changes where
  created : List (String × CodexSessionMetadata)
  deleted : List String
deriving DecidableEq, Repr

/-- What the running save has come to: it awaits the lock, it holds the lock, it has read
the file again, it awaits the release of the lock, the lock is released. -/
inductive Phase
  | idle
  | locking (changes : Changes)
  | holding (changes : Changes)
  | writing (changes : Changes) (threads : Table String)
  | releasing (changes : Changes) (saved : Bool)
  | settling (changes : Changes) (saved : Bool)

structure CodexSessionStore where
  sessions : Table CodexSessionMetadata := .empty
  minted : ℕ := 0
  /-- Sessions this process created since its last successful save. -/
  dirty : List String := []
  /-- Sessions this process deleted since its last successful save. -/
  deleted : List String := []
  /-- Deleted sessions this process never had in its map. -/
  unconfirmed : List String := []
  timer : Bool := false
  queued : Bool := false
  phase : Phase := .idle

/-- `set.add(id)` -/
def add (id : String) (set : List String) : List String := if id ∈ set then set else set ++ [id]

/-- `set.delete(id)` -/
def remove (id : String) (set : List String) : List String := set.filter (· ≠ id)

@[simp] theorem mem_add {id id' : String} {set : List String} : id' ∈ add id set ↔ id' = id ∨ id' ∈ set := by
  unfold add
  split_ifs with h
  · exact ⟨.inr, fun hmem => hmem.elim (fun heq => heq ▸ h) fun hmem => hmem⟩
  · rw [List.mem_append, List.mem_singleton, or_comm]

@[simp] theorem mem_remove {id id' : String} {set : List String} :
    id' ∈ remove id set ↔ id' ∈ set ∧ id' ≠ id := by
  simp [remove]

/-- The read of the file, `none` when it throws. -/
def readCodexSessionThreads (file : Option (Table String)) (failed : Bool) : Option (Table String) :=
  if failed then none else file

namespace CodexSessionStore

/-- `new CodexSessionStore`: what is loaded gets a turn id of its own. -/
def load (file : Option (Table String)) (failed : Bool) (turnID : String → String) :
    CodexSessionStore :=
  ((readCodexSessionThreads file failed).getD .empty).entries.foldl
    (fun store entry => { store with
      minted := store.minted + 1
      sessions := store.sessions.set entry.1 {
        threadID := entry.2
        turnID := turnID entry.1
        windowID := entry.2 ++ ":0"
        ref := store.minted } }) {}

/-- A new session gets a new thread id and is saved. -/
def get (store : CodexSessionStore) (sessionID threadID turnID : String) : CodexSessionStore :=
  match store.sessions.get sessionID with
  | some _ => store
  | none =>
      { store with
        minted := store.minted + 1
        sessions := store.sessions.set sessionID {
          threadID
          turnID
          windowID := threadID ++ ":0"
          ref := store.minted }
        deleted := remove sessionID store.deleted
        unconfirmed := remove sessionID store.unconfirmed
        dirty := add sessionID store.dirty
        timer := true }

/-- Forgets a deleted host session here and, on the next save, in the file. -/
def delete (store : CodexSessionStore) (sessionID : String) : CodexSessionStore :=
  let known := (store.sessions.get sessionID).isSome
  { store with
    sessions := store.sessions.delete sessionID
    dirty := remove sessionID store.dirty
    deleted := if known then add sessionID store.deleted else store.deleted
    unconfirmed :=
      if known || sessionID ∈ store.deleted then store.unconfirmed
      else add sessionID store.unconfirmed
    timer := true }

/-- A save takes over the one that waits for the timer; one may be queued. -/
def save (store : CodexSessionStore) : CodexSessionStore :=
  { store with timer := false, queued := true }

/-- Keeps the deletions of sessions this process never loaded only when the file has them. -/
def confirmDeletions (store : CodexSessionStore) (file : Option (Table String)) (failed : Bool) :
    CodexSessionStore :=
  let saved := (readCodexSessionThreads file failed).getD .empty
  { store with
    deleted := store.unconfirmed.foldl (fun deleted id =>
      if (saved.get id).isSome && (store.sessions.get id).isNone then add id deleted else deleted)
      store.deleted
    unconfirmed := [] }

def changes (store : CodexSessionStore) : Changes where
  created := store.dirty.flatMap fun id =>
    ((store.sessions.get id).map fun metadata => (id, metadata)).toList
  deleted := store.deleted

/-- The queued save starts: it ends here when there is nothing to save, or when the folder
cannot be made. -/
def begin (store : CodexSessionStore) (file : Option (Table String)) (failed folderFailed : Bool) :
    CodexSessionStore :=
  let confirmed := { store with queued := false }.confirmDeletions file failed
  if confirmed.dirty = [] ∧ confirmed.deleted = [] then confirmed
  else if folderFailed then confirmed
  else { confirmed with phase := .locking confirmed.changes }

end CodexSessionStore

/-- The threads without what was deleted and with what was created, and whether any of it
was news. -/
def Changes.apply (changes : Changes) (threads : Table String) : Table String × Bool :=
  let without := changes.deleted.foldl (fun result id =>
    if (result.1.get id).isSome then (result.1.delete id, true) else result) (threads, false)
  changes.created.foldl (fun result entry =>
    if result.1.get entry.1 = some entry.2.threadID then result
    else (result.1.set entry.1 entry.2.threadID, true)) without

/-- What was saved is no longer pending, unless it changed meanwhile. -/
def CodexSessionStore.settle (store : CodexSessionStore) (changes : Changes) : CodexSessionStore :=
  { store with
    dirty := changes.created.foldl (fun dirty entry =>
      if (store.sessions.get entry.1).map (·.ref) = some entry.2.ref then remove entry.1 dirty
      else dirty) store.dirty
    deleted := changes.deleted.foldl (fun deleted id =>
      if (store.sessions.get id).isNone then remove id deleted else deleted) store.deleted }

/-! ## Processes that share the file -/

/-- The file, its lock and the processes; `none` is one that has not started. The last four
fields are kept of the run: whether a process changed nothing since its running save began,
and since a save that it completed; what was created, and which sessions were deleted. -/
structure World (P : Type*) where
  file : Option (Table String)
  lock : Option P
  store : P → Option CodexSessionStore
  covered : P → Bool
  clean : P → Bool
  created : List (P × String × String)
  removed : List (P × String)

inductive Step (P : Type*)
  | start (p : P) (failed : Bool) (turnID : String → String)
  | get (p : P) (sessionID threadID turnID : String)
  | delete (p : P) (sessionID : String)
  | timer (p : P)
  | save (p : P)
  | begin (p : P) (failed folderFailed : Bool)
  | locked (p : P) (got : Bool)
  | reread (p : P) (failed : Bool)
  | write (p : P) (failed : Bool)
  | released (p : P)
  | settle (p : P)

namespace World

variable {P : Type*} [DecidableEq P]

def initial (file : Option (Table String)) : World P where
  file := file
  lock := none
  store _ := none
  covered _ := false
  clean _ := true
  created := []
  removed := []

def put (w : World P) (p : P) (store : CodexSessionStore) : World P :=
  { w with store := Function.update w.store p (some store) }

/-- A change of the process: no save has it yet. -/
def changed (w : World P) (p : P) : World P :=
  { w with
    covered := Function.update w.covered p false
    clean := Function.update w.clean p false }

/-- The step of one process; `none` where the process is not there to take it. -/
def step (w : World P) : Step P → Option (World P)
  | .start p failed turnID =>
      match w.store p with
      | none => some (w.put p (.load w.file failed turnID))
      | some _ => none
  | .get p sessionID threadID turnID =>
      (w.store p).map fun store =>
        if (store.sessions.get sessionID).isSome then w
        else
          { (w.put p (store.get sessionID threadID turnID)).changed p with
            created := (p, sessionID, threadID) :: w.created }
  | .delete p sessionID =>
      (w.store p).map fun store =>
        { (w.put p (store.delete sessionID)).changed p with removed := (p, sessionID) :: w.removed }
  | .timer p =>
      (w.store p).bind fun store => if store.timer then some (w.put p store.save) else none
  | .save p => (w.store p).map fun store => w.put p store.save
  | .begin p failed folderFailed =>
      (w.store p).bind fun store =>
        match store.queued, store.phase with
        | true, .idle =>
            let begun := store.begin w.file failed folderFailed
            match begun.phase with
            | .idle =>
                some { w.put p begun with
                  clean := Function.update w.clean p
                    (w.clean p || (begun.dirty = [] ∧ begun.deleted = [])) }
            | _ => some { w.put p begun with covered := Function.update w.covered p true }
        | _, _ => none
  | .locked p got =>
      (w.store p).bind fun store =>
        match store.phase with
        | .locking changes =>
            if got then
              if w.lock.isNone then
                some { w.put p { store with phase := .holding changes } with lock := some p }
              else none
            else some (w.put p { store with phase := .idle })
        | _ => none
  | .reread p failed =>
      (w.store p).bind fun store =>
        match store.phase with
        | .holding changes =>
            some (w.put p { store with
              phase := .writing changes ((readCodexSessionThreads w.file failed).getD .empty) })
        | _ => none
  | .write p failed =>
      (w.store p).bind fun store =>
        match store.phase with
        | .writing changes threads =>
            let (threads, changed) := changes.apply threads
            if !changed then some (w.put p { store with phase := .releasing changes true })
            else if failed then some (w.put p { store with phase := .releasing changes false })
            else
              some { w.put p { store with phase := .releasing changes true } with
                file := some threads }
        | _ => none
  | .released p =>
      (w.store p).bind fun store =>
        match store.phase with
        | .releasing changes saved =>
            some { w.put p { store with phase := .settling changes saved } with lock := none }
        | _ => none
  | .settle p =>
      (w.store p).bind fun store =>
        match store.phase with
        | .settling changes saved =>
            if saved then
              some { w.put p { store.settle changes with phase := .idle } with
                clean := Function.update w.clean p (w.covered p) }
            else some (w.put p { store with phase := .idle })
        | _ => none

end World

end CodexSessions
