import OpenaiAuth.Js.Fields

/-! # The floors of a killswitch block

A killswitch block is older and unmarked, or marked with `floors-v1` and read in the
vocabulary of the shared menu. `migrateLegacySettings` rewrites an older one, and
`withSettingsMigration` does so in every write of the settings. Settings are parsed
JSON; a block whose `accounts` is an array or a text is out of scope.
-/

namespace KillswitchFloors

open Js

abbrev Settings := Members

def killswitchFloorsSchema : String := "floors-v1"

/-- As the reader returns them: whatever an older block has in their place. -/
structure Floors where
  primary : Json
  secondary : Json
deriving DecidableEq, Repr

def defaultKillswitchThresholds : Floors where
  primary := .num 5
  secondary := .num 10

def Floors.toJson (floors : Floors) : Json :=
  .obj [("primary", floors.primary), ("secondary", floors.secondary)]

/-! ## Reading -/

/-- Whether a value holds in an `if`. -/
def truthy : Json → Bool
  | .null => false
  | .bool b => b
  | .num q => q ≠ 0
  | .str s => s ≠ ""
  | _ => true

/-- What every object has without having it. -/
def objectPrototypeMembers : List String :=
  ["__proto__", "constructor", "hasOwnProperty", "isPrototypeOf", "propertyIsEnumerable",
    "toLocaleString", "toString", "valueOf", "__defineGetter__", "__defineSetter__",
    "__lookupGetter__", "__lookupSetter__"]

/-- `accounts?.[id]`; what is inherited has no thresholds, as an empty record has none. -/
def entryAt (accounts : Option Json) (id : String) : Option Json :=
  match accounts with
  | some (.obj members) =>
      (members.lookup id).or (if id ∈ objectPrototypeMembers then some (.obj []) else none)
  | _ => none

def normalizeKillswitchThresholds (thresholds : Option Json) : Floors where
  primary := (Json.orElse (thresholds.bind (·.get? "primary"))
    (Json.orElse (thresholds.bind (·.get? "5h")) (some defaultKillswitchThresholds.primary))).getD
      defaultKillswitchThresholds.primary
  secondary := (Json.orElse (thresholds.bind (·.get? "secondary"))
    (Json.orElse (thresholds.bind (·.get? "1w")) (some defaultKillswitchThresholds.secondary))).getD
      defaultKillswitchThresholds.secondary

/-- A missing or malformed value is no floor. -/
def floorOf : Option Json → Json
  | some (.num q) => .num q
  | _ => .num 0

def isMarked (block : Json) : Bool := block.get? "schema" = some (.str killswitchFloorsSchema)

/-- The entry that the older reader goes by, where there is one. -/
def ownEntry (block : Json) (accountId : Option String) : Option Json :=
  (accountId.filter (· ≠ "")).bind fun id => (entryAt (block.get? "accounts") id).filter truthy

def legacyFloors (block : Json) (accountId : Option String) : Floors :=
  normalizeKillswitchThresholds ((ownEntry block accountId).or (block.get? "main"))

/-- An account's own entry replaces the defaults whole. -/
def markedFloors (block : Json) (accountId : Option String) : Floors :=
  let own := (((block.recordAt? "accounts").bind (·.get? (accountId.getD "main"))).filter
    Json.isRecord).or (block.recordAt? "defaults")
  { primary := floorOf (own.bind (·.get? "primary"))
    secondary := floorOf (own.bind (·.get? "secondary")) }

/-- No account id is the main account. -/
def getKillswitchThresholdsForAccount (killswitch : Option Json) (accountId : Option String) :
    Floors :=
  match killswitch.filter truthy with
  | none => defaultKillswitchThresholds
  | some block =>
      if isMarked block then markedFloors block accountId else legacyFloors block accountId

/-! ## Rewriting -/

def mainRowId : String := "main"

def prototypeKeys : List String := ["__proto__", "constructor", "prototype"]

/-- `for (const id of ids) accounts[id] = ...` -/
def setEach (value : String → Option Json) (ids : List String) (accounts : Members) : Members :=
  ids.foldl (fun accounts id =>
    match value id with
    | some entry => accounts.set id entry
    | none => accounts) accounts

/-- What a rewritten block says of an account. -/
def rewrittenEntry (block : Members) (id : String) : Option Json :=
  if id ∈ prototypeKeys then none
  else some (getKillswitchThresholdsForAccount (some (.obj block))
    (if id = mainRowId then none else some id)).toJson

def killswitchInFloors (block : Members) (rosterIds : List String) : Members :=
  let named := ((Json.obj block).recordAt? "accounts").elim [] fun accounts =>
    accounts.members.map Prod.fst
  let accounts := setEach (rewrittenEntry block) (mainRowId :: rosterIds ++ named) []
  let fallback := getKillswitchThresholdsForAccount (some (.obj block)) none
  (((block.erase "main").set "accounts" (.obj accounts)).set "defaults" fallback.toJson).set
    "schema" (.str killswitchFloorsSchema)

def killswitchWithDefaultFloors (block : Members) (rosterIds : List String) : Members :=
  let given := ((Json.obj block).recordAt? "accounts").elim [] Json.members
  let accounts := setEach (fun id =>
      if id ∈ prototypeKeys || (given.lookup id).isSome then none
      else some defaultKillswitchThresholds.toJson) (mainRowId :: rosterIds) given
  let defaults := ((Json.obj block).recordAt? "defaults").getD defaultKillswitchThresholds.toJson
  ((block.set "accounts" (.obj accounts)).set "defaults" defaults).set
    "schema" (.str killswitchFloorsSchema)

/-- `cachekeep` becomes `cacheKeep`; a value already under the new name wins. -/
def migrateCacheKeep (settings : Settings) : Bool × Settings :=
  match (Json.obj settings).recordAt? "cachekeep" with
  | some older =>
      let newer := ((Json.obj settings).recordAt? "cacheKeep").elim [] Json.members
      (true, (settings.set "cacheKeep" (.obj (older.members.spread newer))).erase "cachekeep")
  | none => (false, settings)

/-- An unmarked block becomes floors. -/
def migrateKillswitch (settings : Settings) (rosterIds : List String) : Bool × Settings :=
  match (Json.obj settings).recordAt? "killswitch" with
  | some block =>
      if isMarked block then (false, settings)
      else (true, settings.set "killswitch" (.obj (killswitchInFloors block.members rosterIds)))
  | none => (false, settings)

def migrateLegacySettings (settings : Settings) (rosterIds : List String) : Bool × Settings :=
  let moved := migrateCacheKeep settings
  let rewritten := migrateKillswitch moved.2 rosterIds
  (moved.1 || rewritten.1, rewritten.2)

/-! ## Writing -/

/-- A block that a write leaves unmarked was created by it. -/
def withDefaultFloors (settings : Settings) (rosterIds : List String) : Settings :=
  match (Json.obj settings).recordAt? "killswitch" with
  | some block =>
      if isMarked block then settings
      else settings.set "killswitch" (.obj (killswitchWithDefaultFloors block.members rosterIds))
  | none => settings

/-- A write of the settings; the mutator throws where it gives none. -/
structure Update where
  rosterIds : List String
  mutator : Settings → Option Settings

/-- `updateSettings` of `withSettingsMigration`: the stored settings after it. -/
def updateSettings (stored : Settings) (update : Update) : Settings :=
  match update.mutator (migrateLegacySettings stored update.rosterIds).2 with
  | some next => withDefaultFloors next update.rosterIds
  | none => stored

/-- The floors that stored settings give an account. -/
def floorsOf (stored : Settings) (accountId : Option String) : Floors :=
  getKillswitchThresholdsForAccount (stored.lookup "killswitch") accountId

end KillswitchFloors
