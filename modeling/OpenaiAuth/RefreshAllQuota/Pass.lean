import OpenaiAuth.Quota.Manager

/-! # One pass over every quota

`refreshAllQuota` polls the usage of the main account and of each row of the roster, and
files each reading under an identity. Logins, requests and other processes go on while
it awaits: what it finds at each `Moment` is a world of its own. The ChatGPT account
that a login, a token or a reading belongs to is carried along as `account`, which the
code never sees.
-/

namespace RefreshAllQuota

open Quota (QuotaManager QuotaEntry truthy)
open Sidebar (AccountQuota)
open Request (differentIdentity)

/-! ## Data -/

/-- A thrown error, with the HTTP status it carries. -/
structure Failure where
  message : String
  status : Option ℚ := none
deriving DecidableEq, Repr

structure Token where
  text : String
  account : String
deriving DecidableEq, Repr

/-- The main slot's login. -/
structure Auth where
  type : String
  access : Option String := none
  refresh : Option String := none
  expires : Option ℚ := none
  account : String
deriving DecidableEq, Repr

/-- What a refresh of the main slot gives. -/
structure MainTokens where
  access : Token
  refresh : String
  expires : ℚ
deriving DecidableEq, Repr

/-- What the provider gives for a row's refresh token. -/
structure RowTokens where
  access : String
  refresh : String
  expires : ℚ
deriving DecidableEq, Repr

structure RefreshError where
  message : String
  nextRetryAt : Option ℚ := none
  tokenHash : Option String := none
deriving DecidableEq, Repr

structure OAuthAccount where
  id : String
  enabled : Option Bool := none
  accountId : Option String := none
  access : Option String := none
  refresh : String
  expires : Option ℚ := none
  lastRefreshError : Option RefreshError := none
  account : String
  /-- A login writes the tokens of a row together with their identity. -/
  named : ∀ identity ∈ truthy accountId, identity = account

inductive FallbackAccount where
  | oauth (row : OAuthAccount)
  /-- An API key, or an OAuth row that cannot be read. -/
  | other (id : String) (enabled : Option Bool)

namespace FallbackAccount

def id : FallbackAccount → String
  | oauth row => row.id
  | other id _ => id

def enabled : FallbackAccount → Option Bool
  | oauth row => row.enabled
  | other _ enabled => enabled

def oauth? : FallbackAccount → Option OAuthAccount
  | oauth row => some row
  | other _ _ => none

end FallbackAccount

structure AccountStorage where
  mainAccountId : Option String := none
  accounts : List FallbackAccount := []
  refreshBeforeExpiryMinutes : Option ℚ := none

/-- One reading of the shared snapshot: when it and its two windows were taken. -/
structure SidebarQuotaReading where
  checkedAt : Option ℚ := none
  primary : Option ℚ := none
  secondary : Option ℚ := none
  account : String
deriving DecidableEq, Repr

structure SidebarFallback where
  id : String
  accountId : Option String := none
  quota : Option SidebarQuotaReading := none
deriving DecidableEq, Repr

structure SidebarQuotaSnapshot where
  mainAccountId : Option String := none
  mainQuota : Option SidebarQuotaReading := none
  fallbacks : List SidebarFallback := []
deriving DecidableEq, Repr

structure RefreshAllQuotaResult where
  account : String
  ok : Bool
  error : Option String := none
  permanent : Bool := false
deriving DecidableEq, Repr

structure RefreshAllQuotaDeps where
  /-- Whether a `whamFn` is there. -/
  whamFn : Bool := true
  storageMainAccountId : Option String := none
  respectBackoff : Bool := false
  skipFresherThanMs : Option ℚ := none
  isTombstoneRefresh : String → Bool
  hashRefreshToken : String → String
  tokenFingerprint : String → String

structure RefreshAllQuotaOptions where
  accountKey : Option String := none
deriving DecidableEq, Repr

/-! ## The world at each await -/

/-- What an await would give if it ended now, with the readings the process holds. -/
structure World where
  now : ℚ
  storage : Except Failure (Option AccountStorage)
  sidebar : Except Failure SidebarQuotaSnapshot
  auth : Except Failure Auth
  lease : Except Failure MainTokens
  usage : Except Failure AccountQuota
  written : Except Failure Unit
  manager : QuotaManager
  /-- The account that `manager.main` is a reading of. -/
  mainOf : String
  /-- The accounts that `manager.fallbacks` are readings of. -/
  fallbackOf : String → String
  refreshPromises : String → Option (Except Failure OAuthAccount)
  fileLock : Bool
  provider : Except Failure RowTokens
  saved : Except Failure Unit

/-- Where a refresh of a row awaits. -/
inductive RefreshStage where
  | called
  | read
  | lock
  | poll (left : ℕ)
  | locked
  | answered
  | saved
  | reread
deriving DecidableEq, Repr

inductive Stage where
  | judged
  | refresh (stage : RefreshStage)
  | refreshed
  | usage
  | forced (stage : RefreshStage)
  | again
deriving DecidableEq, Repr

inductive Moment where
  | sidebar
  | storage
  | auth
  /-- The main slot's token is in hand, from the slot or from its refresh. -/
  | token
  | usage
  | row (n : ℕ) (stage : Stage)
  | closing
deriving DecidableEq, Repr

/-! ## Rows -/

def poolMainPlaceholderRefresh : String := "common-auth-placeholder:v1:openai"

def hostSlotTombstoneRefresh : String := "claustrum-tombstone:v1:openai"

def poolMainRowId : String := "main"

/-- The pool's placeholder, or the tombstone of the removed custody. -/
def isPoolMainPlaceholder (auth : Auth) : Bool :=
  auth.type = "oauth" &&
    (auth.refresh = some poolMainPlaceholderRefresh || auth.refresh = some hostSlotTombstoneRefresh)

/-- The place of the row that serves as the main account. -/
def findPoolMainRow (storage : Option AccountStorage) : Option ℕ :=
  storage.bind fun storage => storage.accounts.findIdx? fun account =>
    account.id = poolMainRowId && account.enabled ≠ some false && account.oauth?.isSome

def isShieldedMainRow (storage : Option AccountStorage) (row : OAuthAccount) : Bool :=
  (truthy (storage.bind (·.mainAccountId))).isSome && (truthy row.accountId).isSome &&
    row.accountId = storage.bind (·.mainAccountId)

/-- The row with this id, if it is a readable OAuth row. -/
def findOAuth (storage : Option AccountStorage) (id : String) : Option OAuthAccount :=
  storage.bind fun storage => storage.accounts.findSome? fun account =>
    if account.id = id then account.oauth? else none

def refreshBeforeExpiryMs (storage : Option AccountStorage) : ℚ :=
  ((storage.bind (·.refreshBeforeExpiryMinutes)).getD 240) * 60000

def tokenNeedsRefresh (row : OAuthAccount) (storage : Option AccountStorage) (now : ℚ) : Bool :=
  (truthy row.access).isNone ||
    match row.expires.filter (· ≠ 0) with
    | none => true
    | some expires => expires - now ≤ refreshBeforeExpiryMs storage

section Deps

variable (deps : RefreshAllQuotaDeps)

def refreshBackoffActive (error : Option RefreshError) (refreshToken : String) (now : ℚ) : Bool :=
  error.any fun error =>
    (error.nextRetryAt.filter (· ≠ 0)).any (now < ·) &&
      (refreshToken = "" || error.tokenHash = some (deps.hashRefreshToken refreshToken))

def formatRefreshBackoffMessage (error : RefreshError) (now : ℚ) : String :=
  let seconds := max 1 ((error.nextRetryAt.getD now - now) / 1000).ceil
  s!"Codex OAuth refresh is backed off for {seconds}s after: {error.message}"

/-! ## The refresh of a row -/

structure RefreshAccountOptions where
  force : Bool := false
  asPoolMain : Bool := false
deriving DecidableEq, Repr

def tombstoneRefreshError : Failure where
  message := "This OpenAI account was moved into the Claustrum vault by an older version of " ++
    "OpenAI auth and holds no local credential. Connect the vault, or sign in to the account again."

def shieldedMainRowRefreshError (accountId : String) : Failure where
  message := s!"Refusing to refresh account {accountId}: it holds the main account's credential " ++
    "while the main slot is live"

def accountRemovedDuringRefreshError (accountId : String) : Failure where
  message := s!"Fallback account {accountId} was removed before refresh"

/-- What the loaded row decides before any request: a tombstone or a shielded row
throws, and a token that is not due is used as it is. -/
def checkRow (options : RefreshAccountOptions) (storage : Option AccountStorage) (now : ℚ)
    (row : OAuthAccount) : Except Failure (Option OAuthAccount) :=
  if deps.isTombstoneRefresh row.refresh then .error tombstoneRefreshError
  else if !options.asPoolMain && isShieldedMainRow storage row then
    .error (shieldedMainRowRefreshError row.id)
  else if !options.force && !tokenNeedsRefresh row storage now then .ok (some row)
  else .ok none

def OAuthAccount.renewed (row : OAuthAccount) (answer : RowTokens) : OAuthAccount :=
  { row with
    access := some answer.access
    refresh := answer.refresh
    expires := some answer.expires
    lastRefreshError := none }

/-- What the world's rows and promises hold while a row is refreshed. -/
abbrev Refreshing := RefreshStage → World

def waitForConcurrentFallbackRefresh (world : Refreshing) (id : String) (previous : OAuthAccount)
    (options : RefreshAccountOptions) : ℕ → Except Failure (Option OAuthAccount)
  | 0 => .ok none
  | left + 1 => do
      let storage ← (world (.poll left)).storage
      let now := (world (.poll left)).now
      match findOAuth storage id with
      | none => waitForConcurrentFallbackRefresh world id previous options left
      | some row =>
          if deps.isTombstoneRefresh row.refresh then .error tombstoneRefreshError
          else if (row.access ≠ previous.access ∨ row.refresh ≠ previous.refresh ∨
                previous.expires.getD 0 + 60000 < row.expires.getD 0) ∧
              (options.force ∨ ¬tokenNeedsRefresh row storage now) then .ok (some row)
          else
            match row.lastRefreshError.filter fun error =>
                refreshBackoffActive deps (some error) row.refresh now with
            | some error => .error { message := formatRefreshBackoffMessage error now }
            | none => waitForConcurrentFallbackRefresh world id previous options left

/-- `FALLBACK_REFRESH_JOIN_WAIT_MS / FALLBACK_REFRESH_JOIN_POLL_MS` -/
def joinPolls : ℕ := 10000 / 100

/-- The part of a refresh that runs under the row's lock. -/
def refreshLocked (world : Refreshing) (id : String) (options : RefreshAccountOptions) :
    Except Failure OAuthAccount := do
  let storage ← (world .locked).storage
  match findOAuth storage id with
  | none => .error (accountRemovedDuringRefreshError id)
  | some row =>
      match ← checkRow deps options storage (world .locked).now row with
      | some usable => .ok usable
      | none =>
          let answer ← (world .answered).provider
          (world .saved).saved
          let refreshed ← (world .reread).storage
          if refreshed.any fun storage => storage.accounts.any fun account => account.id = id then
            .ok (row.renewed answer)
          else .error (accountRemovedDuringRefreshError id)

def refreshAccountNow (world : Refreshing) (account : OAuthAccount)
    (options : RefreshAccountOptions) : Except Failure OAuthAccount := do
  let storage ← (world .read).storage
  let latest := findOAuth storage account.id
  let usable ← match latest with
    | none => .ok none
    | some row => checkRow deps options storage (world .read).now row
  match usable with
  | some usable => .ok usable
  | none =>
      if (world .lock).fileLock then refreshLocked deps world account.id options
      else
        match ← waitForConcurrentFallbackRefresh deps world account.id (latest.getD account) options
            joinPolls with
        | some row => .ok row
        | none => .error { message := "Fallback OAuth refresh is already in progress" }

/-- A refresh of the row that is under way is joined. The loaded storage gets the row
too, at a place the loop over it has passed. -/
def refreshAccount (world : Refreshing) (account : OAuthAccount) (options : RefreshAccountOptions) :
    Except Failure OAuthAccount :=
  match (world .called).refreshPromises account.id with
  | some existing => existing
  | none => refreshAccountNow deps world account options

/-! ## Freshness -/

def isFresh (now : ℚ) (checkedAt : Option ℚ) : Bool :=
  deps.skipFresherThanMs.any fun freshnessMs => checkedAt.any fun checkedAt =>
    checkedAt ≤ now && now - checkedAt < freshnessMs

/-- A time the freshness gate reads, with the identity its reading is filed under and the
account it is of. -/
structure Reading where
  checkedAt : Option ℚ
  label : Option String
  account : String
deriving DecidableEq, Repr

def SidebarQuotaReading.readings (quota : SidebarQuotaReading) (label : Option String) :
    List Reading :=
  [quota.primary, quota.secondary, quota.checkedAt].map fun checkedAt =>
    ⟨checkedAt, label, quota.account⟩

/-- The readings of the main account under `identity`. -/
def mainReadings (sidebar : Option SidebarQuotaSnapshot) (world : World)
    (identity : Option String) : List Reading :=
  let held := (world.manager.peekMainForPolicy identity).map fun entry =>
    { checkedAt := some entry.checkedAt
      label := world.manager.mainQuotaAccountId
      account := world.mainOf : Reading }
  let shared := sidebar.bind fun sidebar =>
    if identity.isSome ∧ sidebar.mainAccountId = identity then sidebar.mainQuota else none
  held.toList ++ shared.elim [] fun quota => quota.readings identity

/-- The readings of a fallback row under `identity`. -/
def fallbackReadings (sidebar : Option SidebarQuotaSnapshot) (world : World) (id : String)
    (identity : Option String) : List Reading :=
  let held := (world.manager.peekFallbackForPolicy id identity).map fun entry =>
    { checkedAt := some entry.checkedAt
      label := entry.accountId
      account := world.fallbackOf id : Reading }
  -- `new Map` keeps the last entry of an id
  let sharedFb := (sidebar.elim [] (·.fallbacks)).reverse.find? fun account => account.id = id
  let shared := sharedFb.bind fun account =>
    if identity.isSome ∧ account.accountId = identity then account.quota else none
  held.toList ++ shared.elim [] fun quota => quota.readings identity

/-! ## What a poll leaves -/

inductive Effect where
  /-- A reading obtained with `token` is passed to `setMain`. -/
  | setMain (manager : QuotaManager) (token : Token) (entry : QuotaEntry) (accountId : Option String)
  | setFallback (manager : QuotaManager) (id : String) (entry : QuotaEntry) (token : Token)
      (identity : Option String)
  /-- The poll is skipped for these readings, while `signedIn` is the account of the slot
  or row. -/
  | skipped (readings : List Reading) (signedIn : Option String)

def Effect.isStore : Effect → Bool
  | setMain .. | setFallback .. => true
  | skipped .. => false

structure Polled where
  result : Option RefreshAllQuotaResult := none
  effects : List Effect := []

def succeeded (account : String) (effects : List Effect) : Polled :=
  ⟨some { account, ok := true }, effects⟩

def failed (account error : String) : Polled :=
  ⟨some { account, ok := false, error := some error }, []⟩

def tombstonedAccountError : String :=
  "the account holds a tombstone from the removed vault custody, not a credential"

def newEntry (world : World) (quota : AccountQuota) : QuotaEntry :=
  { quota, checkedAt := world.now, refreshAfter := world.now + 5 * 60 * 1000 }

/-! ## The pass -/

section Run

variable (options : RefreshAllQuotaOptions) (world : Moment → World)

def loadedStorage : Option AccountStorage :=
  (world .storage).storage.toOption.join

def sharedSidebarState : Option SidebarQuotaSnapshot :=
  if deps.skipFresherThanMs.isSome then (world .sidebar).sidebar.toOption else none

/-- The identity of the main account, as the storage had it when the pass began. -/
def liveMainAccountId : Option String :=
  ((loadedStorage world).bind (·.mainAccountId)).or deps.storageMainAccountId

def pollsMain : Bool :=
  (truthy options.accountKey).all (· = poolMainRowId)

/-- The place of the row that is polled as the main account. -/
def poolMainRow : Option ℕ :=
  if pollsMain options then
    (world .auth).auth.toOption.bind fun auth =>
      if isPoolMainPlaceholder auth then findPoolMainRow (loadedStorage world) else none
  else none

/-! ### The main slot -/

/-- The slot's own token, or the one its refresh gives. -/
def slotToken (auth : Auth) : Except Failure (Option Token) :=
  match truthy auth.access with
  | some access =>
      if auth.expires.getD 0 < (world .auth).now then
        (world .token).lease.map fun tokens => some tokens.access
      else .ok (some ⟨access, auth.account⟩)
  | none => (world .token).lease.map fun tokens => some tokens.access

/-- The poll of a live main slot. -/
def pollSlot (auth : Auth) : Except Failure Polled := do
  let identity := liveMainAccountId deps world
  let fresh := (mainReadings (sharedSidebarState deps world) (world .auth) identity).filter
    fun reading => isFresh deps (world .auth).now reading.checkedAt
  if fresh ≠ [] then .ok (succeeded "main" [.skipped fresh (some auth.account)])
  else
    match (← slotToken world auth).filter (·.text ≠ "") with
    | none => .ok (failed "main" "no access token")
    | some token =>
        if deps.respectBackoff && (world .token).manager.isBackedOff (world .token).now then
          .ok (succeeded "main" [])
        else
          let quota ← (world .usage).usage
          .ok (succeeded "main"
            [.setMain (world .usage).manager token (newEntry (world .usage) quota) identity])

def pollMain : Polled :=
  let polled : Except Failure Polled := do
    let auth ← (world .auth).auth
    if isPoolMainPlaceholder auth then
      if (poolMainRow options world).isSome then .ok {}
      else if auth.refresh.any deps.isTombstoneRefresh then
        .ok (failed "main" tombstonedAccountError)
      else .ok (failed "main" "main account row is missing from the account pool")
    else if auth.type = "oauth" then pollSlot deps world auth
    else .ok (failed "main" "auth type is not oauth")
  match polled with
  | .ok polled => polled
  | .error error => failed "main" error.message

/-! ### The roster -/

section Row

variable (n : ℕ) (row : OAuthAccount)

/-- The row is polled and recorded as the main account. -/
def asMain : Bool := poolMainRow options world = some n

/-- The identity the row's readings are asked for under. -/
def rowIdentity : Option String :=
  if asMain options world n then row.accountId.or (liveMainAccountId deps world) else row.accountId

def rowReadings : List Reading :=
  if asMain options world n then
    mainReadings (sharedSidebarState deps world) (world (.row n .judged))
      (rowIdentity deps options world n row)
  else
    fallbackReadings (sharedSidebarState deps world) (world (.row n .judged)) row.id row.accountId

/-- The account signed in at the row now. -/
def signedIn (now : World) (id : String) : Option String :=
  (findOAuth now.storage.toOption.join id).map (·.account)

def storeReading (now : World) (quota : AccountQuota) (token : Token) (accountId : Option String) :
    Effect :=
  if asMain options world n then
    .setMain now.manager token (newEntry now quota) (rowIdentity deps options world n row)
  else .setFallback now.manager row.id (newEntry now quota) token accountId

def isRowBackedOff (now : World) : Bool :=
  if asMain options world n then now.manager.isBackedOff now.now
  else now.manager.isFallbackBackedOff deps.tokenFingerprint row.id (row.access.getD "") now.now

/-- What ends the poll of a row before any request. -/
def rowGate : Option Polled :=
  let now := world (.row n .judged)
  let fresh := (rowReadings deps options world n row).filter fun reading =>
    isFresh deps now.now reading.checkedAt
  if fresh ≠ [] then some (succeeded row.id [.skipped fresh (signedIn now row.id)])
  else if deps.respectBackoff && isRowBackedOff deps options world n row now then
    some (succeeded row.id [])
  else
    match row.lastRefreshError.filter fun error =>
        refreshBackoffActive deps (some error) row.refresh now.now with
    | some error => some ⟨some {
        account := row.id
        ok := false
        error := some (formatRefreshBackoffMessage error now.now)
        permanent := true }, []⟩
    | none =>
        if deps.isTombstoneRefresh row.refresh then some (failed row.id tombstonedAccountError)
        else none

/-- The row the first refresh gives; one that fails leaves the loaded row. -/
def refreshedRow : OAuthAccount :=
  match refreshAccount deps (fun stage => world (.row n (.refresh stage))) row
      { asPoolMain := asMain options world n } with
  | .ok refreshed => refreshed
  | .error _ => row

def forcedRow : Except Failure OAuthAccount :=
  refreshAccount deps (fun stage => world (.row n (.forced stage))) row
    { force := true, asPoolMain := asMain options world n }

/-- The requests for a row's usage: a 401 is answered by one forced refresh. -/
def askUsage : Except Failure Polled :=
  let refreshed := refreshedRow deps options world n row
  match truthy refreshed.access with
  | none => .ok (failed row.id "no usable access token")
  | some access =>
      if refreshed.expires.getD 0 < (world (.row n .refreshed)).now then
        .ok (failed row.id "no usable access token")
      else
        match (world (.row n .usage)).usage with
        | .ok quota =>
            .ok (succeeded row.id [storeReading deps options world n row (world (.row n .usage))
              quota ⟨access, refreshed.account⟩ refreshed.accountId])
        | .error error =>
            if error.status ≠ some 401 then .error error
            else
              match forcedRow deps options world n row with
              | .error error => .error error
              | .ok refreshed =>
                  match truthy refreshed.access with
                  | none => .ok (failed row.id "no usable access token after forced refresh")
                  | some access =>
                      match (world (.row n .again)).usage with
                      | .error error => .error error
                      | .ok quota =>
                          .ok (succeeded row.id [storeReading deps options world n row
                            (world (.row n .again)) quota ⟨access, refreshed.account⟩
                            refreshed.accountId])

def pollOAuth : Polled :=
  match rowGate deps options world n row with
  | some polled => polled
  | none =>
      match askUsage deps options world n row with
      | .ok polled => polled
      | .error error => failed row.id error.message

end Row

/-- A refusal is recorded only for the account that was asked for. -/
def refused (id error : String) : Polled :=
  if (truthy options.accountKey).isSome then failed id error else {}

/-- The row is not the one that was asked for. -/
def isPassedOver (n : ℕ) (id : String) : Bool :=
  !asMain options world n &&
    (truthy options.accountKey).any fun key => key = poolMainRowId || id ≠ key

def pollRow (storage : AccountStorage) (n : ℕ) (account : FallbackAccount) : Polled :=
  if isPassedOver options world n account.id then {}
  else
    match account with
    | .other id _ => refused options id "account is not an enabled OAuth fallback"
    | .oauth row =>
        if !asMain options world n && isShieldedMainRow (some storage) row then
          refused options row.id "account holds the main credential while the main slot is live"
        else if row.enabled = some false then
          refused options row.id "account is not an enabled OAuth fallback"
        else pollOAuth deps options world n row

def pollRows : List Polled :=
  (loadedStorage world).elim [] fun storage =>
    storage.accounts.mapIdx (pollRow deps options world storage)

def polls : List Polled :=
  (if pollsMain options then [pollMain deps options world] else []) ++ pollRows deps options world

/-- The results, with one for an account that was asked for and not found. -/
def results : List RefreshAllQuotaResult :=
  let results := (polls deps options world).filterMap (·.result)
  match (truthy options.accountKey).filter (· ≠ poolMainRowId) with
  | some key =>
      if results.any (·.account = key) then results
      else results ++ [{ account := key, ok := false, error := some "account not found" }]
  | none => results

structure Outcome where
  effects : List Effect
  returned : Except Failure (List RefreshAllQuotaResult)

def refreshAllQuota : Outcome :=
  if !deps.whamFn then ⟨[], .error { message := "whamFn is required for refreshAllQuota" }⟩
  else
    let effects := (polls deps options world).flatMap (·.effects)
    { effects
      returned := do
        if deps.skipFresherThanMs.isNone || effects.any (·.isStore) then
          let _ ← (world .closing).storage
          (world .closing).written
        return results deps options world }

end Run

end Deps

end RefreshAllQuota
