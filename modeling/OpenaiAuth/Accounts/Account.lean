import OpenaiAuth.Accounts.Quota

/-! # Account rows

A row of the roster as `normalizeAccount` makes it from a parsed entry, and the
two halves it is written in: `accountConfig` for the config file, which holds no
secret, and `accountRuntimeState` for the state file. A row that was loaded is
loaded again from its two halves.
-/

namespace Accounts

open Js

structure AccountBase where
  id : String
  label : Option String := none
  enabled : Option Bool := none
  addedAt : Option ℚ := none
  lastUsed : Option ℚ := none
  accountId : Option String := none
deriving DecidableEq, Repr

/-- The error and the snapshot are kept as the objects they are written as. -/
structure OAuthAccount extends AccountBase where
  access : Option String := none
  refresh : String
  expires : Option ℚ := none
  lastRefreshedAt : Option ℚ := none
  lastRefreshError : Option Json := none
  lastQuotaRefreshError : Option Json := none
  quota : Option Json := none
deriving DecidableEq, Repr

inductive AuthHeader where
  | authorizationBearer
  | xApiKey
deriving DecidableEq, Repr

def AuthHeader.text : AuthHeader → String
  | .authorizationBearer => "authorization-bearer"
  | .xApiKey => "x-api-key"

structure ApiKeyAccount extends AccountBase where
  apiKey : Option String := none
  baseURL : String
  authHeader : Option AuthHeader := none
deriving DecidableEq, Repr

inductive FallbackAccount where
  | oauth (account : OAuthAccount)
  | corrupt (base : AccountBase)
  | api (account : ApiKeyAccount)
deriving DecidableEq, Repr

namespace FallbackAccount

def base : FallbackAccount → AccountBase
  | .oauth account => account.toAccountBase
  | .corrupt base => base
  | .api account => account.toAccountBase

def id (account : FallbackAccount) : String := account.base.id

/-- `isOAuthAccount` -/
def oauth? : FallbackAccount → Option OAuthAccount
  | .oauth account => some account
  | _ => none

/-- Whether the row carries a refresh token or an API key. -/
def holdsCredential : FallbackAccount → Bool
  | .oauth _ => true
  | .corrupt _ => false
  | .api account => account.apiKey.isSome

end FallbackAccount

/-! ## Reading a row -/

variable (rt : Runtime)

/-- `typeof value === 'string' && value.trim()` -/
def nonblank (value : Option Json) : Option String := (stringOf value).filter fun s => !isBlank s

theorem nonblank_eq_some {value : Option Json} {s : String} :
    nonblank value = some s ↔ value = some (.str s) ∧ isBlank s = false := by
  rcases value with _ | _ | _ | _ | _ | _ | _ <;>
    simp [nonblank, stringOf, Json.string?, Option.filter_eq_some_iff]

theorem nonblank_str {s : String} (h : isBlank s = false) : nonblank (some (.str s)) = some s :=
  nonblank_eq_some.mpr ⟨rfl, h⟩

def isValidApiBaseURL (value : String) : Bool :=
  !isBlank value && rt.isHttpUrl (trim value)

/-- `uuid` is what `randomUUID` returns here, for an entry without an id of its
own. -/
def normalizeAccountBase (uuid : String) (value : Json) : AccountBase where
  id := ((nonblank (value.get? "id")).map trim).getD uuid
  label := stringOf (value.get? "label")
  enabled := boolOf (value.get? "enabled")
  addedAt := numberIn (value.get? "addedAt")
  lastUsed := numberIn (value.get? "lastUsed")
  accountId := stringOf (value.get? "accountId")

def hasId (value : Json) : Bool := (nonblank (value.get? "id")).isSome

def normalizeApiAccount (uuid : String) (value : Json) : Option FallbackAccount :=
  let baseURL := trim ((stringOf (value.get? "baseURL")).getD "")
  let apiKey := trim ((stringOf (value.get? "apiKey")).getD "")
  if isValidApiBaseURL rt baseURL then
    some (.api {
      toAccountBase := normalizeAccountBase uuid value
      apiKey := if apiKey = "" then none else some apiKey
      baseURL := baseURL
      authHeader := some (if value.get? "authHeader" = some (.str "x-api-key") then .xApiKey
        else .authorizationBearer) })
  else none

/-- A row without a readable refresh token is kept as a corrupt one where the
entry names an account at all. -/
def normalizeOAuthAccount (uuid : String) (value : Json) : Option FallbackAccount :=
  if value.get? "corrupt" = some (.bool true) then
    if hasId value then some (.corrupt (normalizeAccountBase uuid value)) else none
  else
    match nonblank (value.get? "refresh") with
    | none =>
        if (value.get? "refresh").isSome && hasId value then
          some (.corrupt (normalizeAccountBase uuid value))
        else none
    | some refresh =>
        some (.oauth {
          toAccountBase := normalizeAccountBase uuid value
          access := stringOf (value.get? "access")
          refresh := refresh
          expires := numberIn (value.get? "expires")
          lastRefreshedAt := numberIn (value.get? "lastRefreshedAt")
          lastRefreshError := normalizeOperationError rt (value.get? "lastRefreshError")
          lastQuotaRefreshError := normalizeOperationError rt (value.get? "lastQuotaRefreshError")
          quota := normalizeQuota rt (value.get? "quota") })

def normalizeAccount (uuid : String) (value : Json) : Option FallbackAccount :=
  if value.get? "type" = some (.str "api") then normalizeApiAccount rt uuid value
  else if value.get? "type" = some (.str "oauth") then normalizeOAuthAccount rt uuid value
  else none

/-! ## Writing a row -/

def FallbackAccount.typeText : FallbackAccount → String
  | .api _ => "api"
  | _ => "oauth"

def FallbackAccount.api? : FallbackAccount → Option ApiKeyAccount
  | .api account => some account
  | _ => none

def FallbackAccount.isCorrupt : FallbackAccount → Bool
  | .corrupt _ => true
  | _ => false

def accountConfig (account : FallbackAccount) : Members :=
  Members.literal [
    ("id", some (.str account.id)),
    ("label", account.base.label.map .str),
    ("type", some (.str account.typeText)),
    ("corrupt", if account.isCorrupt then some (.bool true) else none),
    ("enabled", account.base.enabled.map .bool),
    ("addedAt", account.base.addedAt.map .num),
    ("accountId", account.base.accountId.map .str),
    ("baseURL", account.api?.map fun api => .str api.baseURL),
    ("authHeader", account.api?.bind fun api => api.authHeader.map fun h => .str h.text)]

def accountRuntimeState : FallbackAccount → Members
  | .api account =>
      Members.literal [
        ("apiKey", account.apiKey.map .str),
        ("lastUsed", account.lastUsed.map .num)]
  | .corrupt _ => []
  | .oauth account =>
      Members.literal [
        ("access", account.access.map .str),
        ("refresh", some (.str account.refresh)),
        ("expires", account.expires.map .num),
        ("lastUsed", account.lastUsed.map .num),
        ("lastRefreshedAt", account.lastRefreshedAt.map .num),
        ("lastRefreshError", account.lastRefreshError),
        ("lastQuotaRefreshError", account.lastQuotaRefreshError),
        ("quota", account.quota)]

/-! ## Loaded rows -/

/-- What reading a row establishes of its parts. -/
structure OAuthAccount.Normal (account : OAuthAccount) : Prop where
  refresh : isBlank account.refresh = false
  lastRefreshError : normalizeOperationError rt account.lastRefreshError = account.lastRefreshError
  lastQuotaRefreshError :
    normalizeOperationError rt account.lastQuotaRefreshError = account.lastQuotaRefreshError
  quota : normalizeQuota rt account.quota = account.quota

structure ApiKeyAccount.Normal (account : ApiKeyAccount) : Prop where
  baseURL_trim : trim account.baseURL = account.baseURL
  baseURL_valid : isValidApiBaseURL rt account.baseURL = true
  apiKey : ∀ key, account.apiKey = some key → trim key = key ∧ key ≠ ""
  authHeader : account.authHeader.isSome = true

def FallbackAccount.NormalKind : FallbackAccount → Prop
  | .oauth account => account.Normal rt
  | .corrupt _ => True
  | .api account => account.Normal rt

/-- What `normalizeAccount` establishes of the rows it returns. -/
structure FallbackAccount.Normal (account : FallbackAccount) : Prop where
  id_trim : trim account.id = account.id
  id_nonblank : isBlank account.id = false
  kind : account.NormalKind rt

/-- The row as it is loaded after it was written: a corrupt row has no runtime
state, and so loses the time of its last use. -/
def FallbackAccount.saved : FallbackAccount → FallbackAccount
  | .corrupt base => .corrupt { base with lastUsed := none }
  | account => account

/-- A new id is trimmed and not blank. -/
def IsUuid (uuid : String) : Prop := trim uuid = uuid ∧ isBlank uuid = false

theorem normalizeAccountBase_id {uuid : String} (huuid : IsUuid uuid) (value : Json) :
    trim (normalizeAccountBase uuid value).id = (normalizeAccountBase uuid value).id ∧
      isBlank (normalizeAccountBase uuid value).id = false := by
  simp only [normalizeAccountBase]
  cases h : nonblank (value.get? "id") with
  | none => exact huuid
  | some id =>
      have hid := (nonblank_eq_some.mp h).2
      simpa only [Option.map_some, Option.getD_some, trim_trim, isBlank_trim, true_and] using hid

theorem normalizeApiAccount_normal {uuid : String} (huuid : IsUuid uuid) {value : Json}
    {account : FallbackAccount} (h : normalizeApiAccount rt uuid value = some account) :
    account.Normal rt := by
  simp only [normalizeApiAccount, Option.ite_none_right_eq_some, Option.some.injEq] at h
  obtain ⟨hvalid, rfl⟩ := h
  have hid := normalizeAccountBase_id huuid value
  refine ⟨hid.1, hid.2, trim_trim _, hvalid, ?_, rfl⟩
  intro key hkey
  simp only [Option.ite_none_left_eq_some, Option.some.injEq] at hkey
  obtain ⟨hne, rfl⟩ := hkey
  exact ⟨trim_trim _, hne⟩

theorem normalizeOAuthAccount_normal {uuid : String} (huuid : IsUuid uuid) {value : Json}
    {account : FallbackAccount} (h : normalizeOAuthAccount rt uuid value = some account) :
    account.Normal rt := by
  have hid := normalizeAccountBase_id huuid value
  have hcorrupt : (FallbackAccount.corrupt (normalizeAccountBase uuid value)).Normal rt :=
    ⟨hid.1, hid.2, trivial⟩
  unfold normalizeOAuthAccount at h
  split at h
  · simp only [Option.ite_none_right_eq_some, Option.some.injEq] at h
    exact h.2 ▸ hcorrupt
  · split at h
    · simp only [Option.ite_none_right_eq_some, Option.some.injEq] at h
      exact h.2 ▸ hcorrupt
    · rename_i refresh hrefresh
      cases h
      exact ⟨hid.1, hid.2, (nonblank_eq_some.mp hrefresh).2, normalizeOperationError_idem rt _,
        normalizeOperationError_idem rt _, normalizeQuota_idem rt _⟩

theorem normalizeAccount_normal {uuid : String} (huuid : IsUuid uuid) {value : Json}
    {account : FallbackAccount} (h : normalizeAccount rt uuid value = some account) :
    account.Normal rt := by
  unfold normalizeAccount at h
  split at h
  · exact normalizeApiAccount_normal rt huuid h
  · split at h
    · exact normalizeOAuthAccount_normal rt huuid h
    · cases h

/-! ## The round trip -/

/-- The two halves of a row put together again. -/
def FallbackAccount.rejoined (account : FallbackAccount) : Json :=
  .obj ((accountConfig account).spread (accountRuntimeState account))

@[simp] theorem get?_rejoined (account : FallbackAccount) (key : String) :
    account.rejoined.get? key =
      ((accountRuntimeState account).lookup key).or ((accountConfig account).lookup key) :=
  Members.lookup_spread ..

/-- What is read back of the fields every row has. -/
theorem normalizeAccountBase_rejoined {account : FallbackAccount} (h : account.Normal rt)
    (uuid : String) :
    normalizeAccountBase uuid account.rejoined = account.saved.base := by
  have hid := nonblank_str h.id_nonblank
  cases account with
  | corrupt base =>
      simp [normalizeAccountBase, accountRuntimeState, accountConfig, FallbackAccount.saved,
        FallbackAccount.base, hid, h.id_trim]
      rfl
  | oauth a =>
      simp [normalizeAccountBase, accountRuntimeState, accountConfig, FallbackAccount.saved,
        FallbackAccount.base, hid, h.id_trim]
      rfl
  | api a =>
      simp [normalizeAccountBase, accountRuntimeState, accountConfig, FallbackAccount.saved,
        FallbackAccount.base, hid, h.id_trim]
      rfl

variable {rt}

theorem apiKey_reread {account : ApiKeyAccount} (h : account.Normal rt) :
    (if trim (account.apiKey.getD "") = "" then none else some (trim (account.apiKey.getD ""))) =
      account.apiKey := by
  cases hkey : account.apiKey with
  | none => exact if_pos rfl
  | some key =>
      obtain ⟨htrim, hne⟩ := h.apiKey key hkey
      rw [Option.getD_some, htrim, if_neg hne]

theorem AuthHeader.reread (header : AuthHeader) :
    (if header.text = "x-api-key" then AuthHeader.xApiKey else .authorizationBearer) = header := by
  cases header <;> rfl

/-- A loaded row is loaded again from what is written of it. -/
theorem normalizeAccount_rejoined {account : FallbackAccount} (h : account.Normal rt)
    (uuid : String) : normalizeAccount rt uuid account.rejoined = some account.saved := by
  have hbase := normalizeAccountBase_rejoined rt h uuid
  have hid := nonblank_str h.id_nonblank
  cases account with
  | corrupt base =>
      have hhas : hasId (FallbackAccount.corrupt base).rejoined = true := by
        simp [hasId, accountRuntimeState, accountConfig, hid]
      simp [normalizeAccount, normalizeOAuthAccount, accountRuntimeState, accountConfig,
        FallbackAccount.typeText, FallbackAccount.isCorrupt, hhas, hbase]
      rfl
  | oauth a =>
      have hkind : a.Normal rt := h.kind
      have hrefresh := nonblank_str hkind.refresh
      simp [normalizeAccount, normalizeOAuthAccount, accountRuntimeState, accountConfig,
        FallbackAccount.typeText, FallbackAccount.isCorrupt, hrefresh, hbase,
        hkind.lastRefreshError, hkind.lastQuotaRefreshError, hkind.quota]
      rfl
  | api a =>
      have hkind : a.Normal rt := h.kind
      obtain ⟨header, hheader⟩ := Option.isSome_iff_exists.mp hkind.authHeader
      simp [normalizeAccount, normalizeApiAccount, accountRuntimeState, accountConfig,
        FallbackAccount.typeText, FallbackAccount.api?, hbase, hkind.baseURL_trim,
        hkind.baseURL_valid, hheader]
      rw [apiKey_reread hkind, AuthHeader.reread, ← hheader]
      rfl

end Accounts
