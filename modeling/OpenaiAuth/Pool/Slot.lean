import OpenaiAuth.Js.Record

/-! # The host login slot

What OpenCode's `openai` entry may hold and how `host-slot.ts` and
`pool-migration.ts` read it: the placeholder, the tombstone, a real login.
A fingerprint is kept as the value its digest is taken of, so two fingerprints
are equal exactly when what they digest is.
-/

namespace PoolMigration

open Js

/-- A digest over a slot's token pair, over a refresh token, or over an API key. -/
inductive Fingerprint where
  | slot (access refresh : String)
  | oauth (refresh : String)
  | api (key : String)
deriving DecidableEq, Repr

/-- What the module takes from outside: the tag of its own config root, the
test for the tombstones of the removed vault custody, and the account an access
token's claims name. -/
structure Setup where
  placeholderOrigin : String
  isCustodyPlaceholder : String → Bool
  claimsAccount : String → Option String

/-! ## Slot values -/

structure MainOauthSlot where
  access : Option String := none
  refresh : Option String := none
  expires : Option Rat := none
  accountId : Option String := none
deriving DecidableEq, Repr

/-- The members of the slot value, in the order `asOauthSlot` spreads them. -/
def MainOauthSlot.toJson (slot : MainOauthSlot) : Json :=
  .obj <|
    [("type", Json.str "oauth")] ++
    (slot.access.map fun s => ("access", Json.str s)).toList ++
    (slot.refresh.map fun s => ("refresh", Json.str s)).toList ++
    (slot.expires.map fun n => ("expires", Json.num n)).toList ++
    (slot.accountId.map fun s => ("accountId", Json.str s)).toList

def asOauthSlot (value : Json) : Option MainOauthSlot :=
  if value.type? = some "oauth" then
    some {
      access := value.stringAt? "access"
      refresh := value.stringAt? "refresh"
      expires := value.numberAt? "expires"
      accountId := value.stringAt? "accountId" }
  else none

structure SlotCredential where
  access : String
  refresh : String
  expires : Option Rat := none
deriving DecidableEq, Repr

/-- The slot's OAuth value when it carries both tokens. -/
def asCompleteMainOauthSlot (value : Json) : Option SlotCredential := do
  let oauth ← asOauthSlot value
  let access ← oauth.access
  let refresh ← oauth.refresh
  return { access, refresh, expires := oauth.expires }

inductive MainAuthSlot where
  | real (oauth : MainOauthSlot)
  | tombstone (oauth : MainOauthSlot)
  | slotAbsent
  | api
  | indeterminate
deriving DecidableEq, Repr

def isTombstoned (setup : Setup) (oauth : MainOauthSlot) : Bool :=
  oauth.refresh.any setup.isCustodyPlaceholder

def classifyMainAuthSlot (setup : Setup) (value : Json) : MainAuthSlot :=
  if value.isRecord && value.type? = some "api" && (value.stringAt? "key").isSome then .api
  else
    match asOauthSlot value with
    | none => .indeterminate
    | some oauth => if isTombstoned setup oauth then .tombstone oauth else .real oauth

/-! ## The placeholder -/

def poolPlaceholderRefresh : String := "common-auth-placeholder:v1:openai"

/-- `{ ...POOL_PLACEHOLDER, accountId: origin }`: what a transfer leaves in the
slot. -/
def poolPlaceholder (origin : String) : Json :=
  .obj [("type", .str "oauth"), ("access", .str ""), ("refresh", .str poolPlaceholderRefresh),
    ("expires", .num 0), ("accountId", .str origin)]

/-- Exact placeholder match: a near miss is a real credential. -/
def isPoolPlaceholder (value : Json) : Bool :=
  value.isRecord && value.type? = some "oauth" && value.stringAt? "access" = some "" &&
    value.stringAt? "refresh" = some poolPlaceholderRefresh && value.numberAt? "expires" = some 0

theorem isPoolPlaceholder_poolPlaceholder (origin : String) :
    isPoolPlaceholder (poolPlaceholder origin) = true := by
  simp [isPoolPlaceholder, poolPlaceholder, Json.isRecord, Json.type?, Json.stringAt?,
    Json.numberAt?, Json.get?, Json.string?, Json.number?, List.lookup_cons]

/-! ## Views -/

namespace SlotCredential

/-- `mainSlotFamilyFingerprint`: the fence compares this exact pair. -/
def fingerprint (c : SlotCredential) : Fingerprint := .slot c.access c.refresh

/-- `fingerprintOf`: the pool compares refresh tokens only. -/
def credentialFingerprint (c : SlotCredential) : Fingerprint := .oauth c.refresh

/-- `identityOf`, where an empty identity counts as none. -/
def identity (setup : Setup) (c : SlotCredential) : Option String :=
  if c.access = "" then none else (setup.claimsAccount c.access).filter (· ≠ "")

end SlotCredential

inductive SlotView where
  | real (credential : SlotCredential)
  | placeholder (origin : Option String)
  | api
  | empty
  | tombstone
  | slotAbsent
  | indeterminate
deriving DecidableEq, Repr

/-- The white space `trim` removes. -/
def isTrimmed (c : Char) : Bool :=
  c.val ∈ [0x9, 0xA, 0xB, 0xC, 0xD, 0x20, 0xA0, 0x1680, 0x2028, 0x2029, 0x202F, 0x205F,
    0x3000, 0xFEFF] || (0x2000 ≤ c.val && c.val ≤ 0x200A)

/-- Whether `value.trim()` is empty. -/
def isBlank (value : String) : Bool := value.toList.all isTrimmed

/-- Classifies a single slot value that is known to exist. -/
def viewOf (value : Json) : SlotView :=
  if isPoolPlaceholder value then .placeholder (value.stringAt? "accountId")
  else
    match asCompleteMainOauthSlot value with
    | none => .empty
    | some complete => if isBlank complete.refresh then .empty else .real complete

/-- What `readSlot` makes of a value it got. -/
def slotView (setup : Setup) (value : Json) : SlotView :=
  match classifyMainAuthSlot setup value with
  | .real oauth => viewOf oauth.toJson
  | .tombstone _ => .tombstone
  | .slotAbsent => .slotAbsent
  | .api => .api
  | .indeterminate => .indeterminate

/-- The login a slot value is, if it is a real one. -/
def loginIn (setup : Setup) (value : Option Json) : Option SlotCredential :=
  match value.map (slotView setup) with
  | some (.real credential) => some credential
  | _ => none

/-- The pair `viewOf` sees in a slot value. -/
def pairIn (value : Option Json) : Option Fingerprint :=
  match value.map viewOf with
  | some (.real credential) => some credential.fingerprint
  | _ => none

section Reading

variable (setup : Setup) (slot : MainOauthSlot)

@[simp] theorem toJson_isRecord : slot.toJson.isRecord = true := rfl

@[simp] theorem toJson_type : slot.toJson.type? = some "oauth" := rfl

@[simp] theorem toJson_access : slot.toJson.stringAt? "access" = slot.access := by
  obtain ⟨access, refresh, expires, accountId⟩ := slot
  cases access <;> cases refresh <;> cases expires <;> cases accountId <;> rfl

@[simp] theorem toJson_refresh : slot.toJson.stringAt? "refresh" = slot.refresh := by
  obtain ⟨access, refresh, expires, accountId⟩ := slot
  cases access <;> cases refresh <;> cases expires <;> cases accountId <;> rfl

@[simp] theorem toJson_expires : slot.toJson.numberAt? "expires" = slot.expires := by
  obtain ⟨access, refresh, expires, accountId⟩ := slot
  cases access <;> cases refresh <;> cases expires <;> cases accountId <;> rfl

@[simp] theorem toJson_accountId : slot.toJson.stringAt? "accountId" = slot.accountId := by
  obtain ⟨access, refresh, expires, accountId⟩ := slot
  cases access <;> cases refresh <;> cases expires <;> cases accountId <;> rfl

/-- Reading a value again through its typed members changes nothing. -/
@[simp] theorem asOauthSlot_toJson : asOauthSlot slot.toJson = some slot := by
  simp [asOauthSlot]

theorem isPoolPlaceholder_toJson {value : Json} {oauth : MainOauthSlot}
    (h : asOauthSlot value = some oauth) :
    isPoolPlaceholder oauth.toJson = isPoolPlaceholder value := by
  unfold asOauthSlot at h
  split at h
  · rename_i htype
    cases h
    have hrecord : value.isRecord = true := by
      cases value <;> first | rfl | simp [Json.type?, Json.stringAt?, Json.get?] at htype
    simp [isPoolPlaceholder, htype, hrecord]
  · cases h

theorem viewOf_toJson {value : Json} {oauth : MainOauthSlot}
    (h : asOauthSlot value = some oauth) : viewOf oauth.toJson = viewOf value := by
  have hp := isPoolPlaceholder_toJson h
  have hc : asCompleteMainOauthSlot oauth.toJson = asCompleteMainOauthSlot value := by
    simp only [asCompleteMainOauthSlot, asOauthSlot_toJson, h]
  have ho : oauth.accountId = value.stringAt? "accountId" := by
    unfold asOauthSlot at h
    split at h
    · cases h
      rfl
    · cases h
  simp only [viewOf, hp, hc, toJson_accountId, ho]

end Reading

variable {setup : Setup}

/-- A real view through the classification is the view of the value itself. -/
theorem viewOf_of_slotView {value : Json} {c : SlotCredential}
    (h : slotView setup value = .real c) : viewOf value = .real c := by
  unfold slotView at h
  split at h
  · rename_i oauth hreal
    unfold classifyMainAuthSlot at hreal
    split at hreal
    · cases hreal
    · split at hreal
      · cases hreal
      · rename_i o ho
        split at hreal
        · cases hreal
        · cases hreal
          rw [← viewOf_toJson ho]
          exact h
  all_goals cases h

theorem viewOf_real {value : Json} {c : SlotCredential} (h : viewOf value = .real c) :
    isPoolPlaceholder value = false := by
  by_contra hp
  rw [Bool.not_eq_false] at hp
  simp only [viewOf, hp] at h
  cases h

/-- The placeholder is no login. -/
theorem loginIn_placeholder {value : Json} (h : isPoolPlaceholder value = true) :
    loginIn setup (some value) = none := by
  unfold loginIn
  split
  · rename_i c hc
    have hv : slotView setup value = .real c := by simpa using hc
    have hnot := viewOf_real (viewOf_of_slotView hv)
    rw [h] at hnot
    cases hnot
  · rfl

end PoolMigration
