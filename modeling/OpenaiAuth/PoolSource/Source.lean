import OpenaiAuth.Js.Table
import OpenaiAuth.Js.Trim

/-! # The account pool as a source of rows

`PoolAccountSource` of OpenCode and `PiPoolSource` keep the rows of the pool files in memory. A
credential that this process rotated is kept beside them and laid over rows that a read had
from before it was written. The two hosts are one source here; where they differ, `Host` says
so.

The store that reads, writes and refreshes the files only shows what it did: a read takes the
rows at one moment, and a refresh writes its row at one moment and answers later. Any process
may write the files at any time.
-/

namespace PoolSource

open Js

/-! ## Rows -/

structure OAuth where
  access : Option String
  refresh : String
  expires : Option ℤ
  lastRefreshedAt : Option ℤ
deriving DecidableEq, Repr

/-- A row's credential; `other` is that of a row of another type. -/
inductive Credential where
  | oauth (fields : OAuth)
  | other
deriving DecidableEq, Repr

structure PoolRow where
  id : String
  /-- `type === 'oauth'` -/
  isOAuth : Bool
  enabled : Bool
  candidate : Bool
  identity : Option String
  credentialEpoch : Option ℕ
  credential : Option Credential
deriving DecidableEq, Repr

def Credential.oauth? : Credential → Option OAuth
  | .oauth fields => some fields
  | .other => none

def PoolRow.oauth (row : PoolRow) : Option OAuth := row.credential.bind Credential.oauth?

/-- `lastRefreshedAt ?? 0` -/
def OAuth.stamp (oauth : OAuth) : ℤ := oauth.lastRefreshedAt.getD 0

/-! ## The source -/

inductive Host where
  | openCode
  | pi
deriving DecidableEq, Repr

/-- A credential that this process rotated, and the epoch it was rotated under, which Pi does
not keep. -/
structure Rotated where
  credential : Credential
  credentialEpoch : Option ℕ
deriving DecidableEq, Repr

structure Source where
  active : Bool := false
  rows : List PoolRow := []
  readAt : ℤ := 0
  rotated : Table Rotated := .empty

/-- One row of `withLocalState`: the row, and what is left of `rotated`. -/
def overlay (host : Host) (rotated : Table Rotated) (row : PoolRow) : PoolRow × Table Rotated :=
  match rotated.get row.id with
  | none => (row, rotated)
  | some own =>
      if host = .openCode ∧ own.credentialEpoch ≠ row.credentialEpoch then
        -- the row's credential was replaced since this process rotated it
        (row, rotated.delete row.id)
      else
        match own.credential.oauth?, row.oauth with
        | some mine, some file =>
            if mine.stamp ≤ file.stamp then (row, rotated.delete row.id)
            else ({ row with credential := some own.credential }, rotated)
        | _, _ => (row, rotated)

def withLocalState (host : Host) (rotated : Table Rotated) : List PoolRow →
    List PoolRow × Table Rotated
  | [] => ([], rotated)
  | row :: rest =>
      let first := overlay host rotated row
      let others := withLocalState host first.2 rest
      (first.1 :: others.1, others.2)

def Source.replaceRow (source : Source) (id : String) (update : PoolRow → PoolRow) : Source :=
  { source with rows := source.rows.map fun row => if row.id = id then update row else row }

/-- A read that did not throw; without rows where the pool is not ready. -/
def Source.adopt (source : Source) (host : Host) (readAt : ℤ) (load : Option (List PoolRow)) :
    Source :=
  if source.readAt ≤ readAt then
    let overlaid := withLocalState host source.rotated (load.getD [])
    { active := load.isSome, rows := overlaid.1, readAt := readAt, rotated := overlaid.2 }
  else source

/-- `sidebarView` shows the rows of its own read. -/
def Source.sidebarView (source : Source) (load : Option (List PoolRow)) : Source :=
  { source with rotated := (withLocalState Host.openCode source.rotated (load.getD [])).2 }

/-- What the store answers to a refresh. -/
inductive Outcome where
  | rotated (credential : Credential) (credentialEpoch : Option ℕ) (identity : Option String)
  | identityContradicted
  | failed
deriving DecidableEq, Repr

/-- The end of `runRefresh`. -/
def Source.refreshed (source : Source) (host : Host) (setAside : Bool) (id : String) :
    Outcome → Source
  | .rotated credential credentialEpoch identity =>
      if host = .pi ∧ setAside then source
      else
        { source with
          rotated := source.rotated.set id ⟨credential, credentialEpoch⟩ }.replaceRow id fun row =>
          if host = Host.openCode ∧ row.credentialEpoch ≠ credentialEpoch then row
          else { row with credential := some credential, identity := row.identity.or identity }
  | .identityContradicted =>
      if host = .pi ∧ setAside then source
      else source.replaceRow id fun row => { row with enabled := false, candidate := false }
  | .failed => source

/-- The access token of a row's credential, if it is not blank and has not run out. -/
def bearer (row : PoolRow) (now : ℤ) : Option String :=
  match row.oauth with
  | none => none
  | some oauth =>
      if isBlank (oauth.access.getD "") then none
      else if oauth.expires.all (· ≤ now) then none
      else some (oauth.access.getD "")

/-- `usableToken`; `vault` says of a row that the vault has it, for Pi of every row or none. -/
def Source.usableToken (source : Source) (host : Host) (vault : PoolRow → Bool) (row : PoolRow)
    (now : ℤ) : Option String :=
  match host with
  | .pi => if vault row then none else bearer row now
  | .openCode =>
      match source.rows.find? (·.id = row.id) with
      | none => none
      | some current =>
          if !current.enabled || !current.candidate || !current.isOAuth ||
              current.identity ≠ row.identity || current.credentialEpoch ≠ row.credentialEpoch ||
              vault current then
            none
          else bearer current now

/-! ## Reads, refreshes and writes -/

inductive ReadPhase where
  | started
  | taken (load : Option (List PoolRow))
  | ended
deriving DecidableEq, Repr

structure Read where
  readAt : ℤ
  sidebar : Bool
  phase : ReadPhase
deriving DecidableEq, Repr

inductive RefreshPhase where
  | asked
  | answered (outcome : Outcome)
  | ended
deriving DecidableEq, Repr

structure Refresh where
  id : String
  phase : RefreshPhase
deriving DecidableEq, Repr

/-- The source, the files, and what is under way. `held` are all rows that the files have had,
`shown` those of the snapshots, and `seen` those that this process has read, or rotated. -/
structure State where
  source : Source := {}
  files : List PoolRow := []
  reads : List Read := []
  refreshes : List Refresh := []
  held : List PoolRow := []
  shown : List PoolRow := []
  seen : List PoolRow := []

inductive Event where
  /-- any process writes the files -/
  | write (rows : List PoolRow)
  | startRead (readAt : ℤ) (sidebar : Bool)
  | take (read : ℕ) (ready : Bool)
  | failRead (read : ℕ)
  | endRead (read : ℕ)
  | startRefresh (id : String)
  | rotate (refresh : ℕ) (credential : Credential) (identity : Option String)
  | contradict (refresh : ℕ) (credential : Credential)
  | failRefresh (refresh : ℕ)
  | endRefresh (refresh : ℕ) (setAside : Bool)
deriving DecidableEq, Repr

def State.setRead (s : State) (n : ℕ) (read : Read) (phase : ReadPhase) : State :=
  { s with reads := s.reads.set n { read with phase := phase } }

def State.setRefresh (s : State) (n : ℕ) (refresh : Refresh) (phase : RefreshPhase) : State :=
  { s with refreshes := s.refreshes.set n { refresh with phase := phase } }

def State.writeFiles (s : State) (rows : List PoolRow) : State :=
  { s with files := rows, held := rows ++ s.held }

/-- The source is as given, and has seen more. -/
def State.see (s : State) (source : Source) (rows : List PoolRow) : State :=
  { s with source := source, shown := source.rows ++ s.shown, seen := rows ++ s.seen }

/-- The row that the rotated credential is of. -/
def rotatedRow (id : String) (credential : Credential) (credentialEpoch : Option ℕ) : PoolRow :=
  { id := id, isOAuth := true, enabled := true, candidate := true, identity := none,
    credentialEpoch := credentialEpoch, credential := some credential }

def Outcome.sees (id : String) : Outcome → List PoolRow
  | .rotated credential credentialEpoch _ => [rotatedRow id credential credentialEpoch]
  | _ => []

def State.step (s : State) (host : Host) : Event → Option State
  | .write rows => if (rows.map (·.id)).Nodup then some (s.writeFiles rows) else none
  | .startRead readAt sidebar =>
      if sidebar && host = .pi then none
      else some { s with reads := s.reads ++ [⟨readAt, sidebar, .started⟩] }
  | .take n ready =>
      match s.reads[n]? with
      | some read =>
          if read.phase = .started then
            some (s.setRead n read (.taken (if ready then some s.files else none)))
          else none
      | none => none
  | .failRead n =>
      match s.reads[n]? with
      | some read => if read.phase = .started then some (s.setRead n read .ended) else none
      | none => none
  | .endRead n =>
      match s.reads[n]? with
      | some ⟨readAt, sidebar, .taken load⟩ =>
          some ((s.setRead n ⟨readAt, sidebar, .taken load⟩ .ended).see
            (if sidebar then s.source.sidebarView load else s.source.adopt host readAt load)
            (load.getD []))
      | _ => none
  | .startRefresh id =>
      if s.refreshes.any fun refresh => refresh.id = id ∧ refresh.phase ≠ .ended then some s
      else some { s with refreshes := s.refreshes ++ [⟨id, .asked⟩] }
  | .rotate n credential identity =>
      match s.refreshes[n]? with
      | some ⟨id, .asked⟩ =>
          match s.files.find? (·.id = id) with
          | some row =>
              some ((s.writeFiles (s.files.map fun r =>
                if r.id = id then { r with credential := some credential
                                           identity := r.identity.or identity } else r)).setRefresh n
                ⟨id, .asked⟩ (.answered (.rotated credential row.credentialEpoch identity)))
          | none => none
      | _ => none
  | .contradict n credential =>
      match s.refreshes[n]? with
      | some ⟨id, .asked⟩ =>
          some ((s.writeFiles (s.files.map fun r =>
            if r.id = id then { r with credential := some credential, enabled := false } else r)).setRefresh
              n ⟨id, .asked⟩ (.answered .identityContradicted))
      | _ => none
  | .failRefresh n =>
      match s.refreshes[n]? with
      | some ⟨id, .asked⟩ => some (s.setRefresh n ⟨id, .asked⟩ (.answered .failed))
      | _ => none
  | .endRefresh n setAside =>
      match s.refreshes[n]? with
      | some ⟨id, .answered outcome⟩ =>
          some ((s.setRefresh n ⟨id, .answered outcome⟩ .ended).see
            (s.source.refreshed host setAside id outcome) (outcome.sees id))
      | _ => none

def State.run (s : State) (host : Host) (events : List Event) : Option State :=
  events.foldlM (fun s e => s.step host e) s

end PoolSource
