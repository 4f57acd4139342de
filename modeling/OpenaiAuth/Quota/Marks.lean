import OpenaiAuth.Quota.Manager

/-! # What becomes of a rate-limit mark

The calls of a `QuotaManager` in any order, with a clock that does not run
backwards. For each mark it is kept when it was made, which the manager itself
does not record: what a step may do to a mark is said with that time.
-/

namespace Quota

open Sidebar Request Js

/-! ## Runs -/

structure World where
  manager : QuotaManager
  now : ℚ
  /-- When the mark of an account was made. -/
  madeAt : Table ℚ := .empty

inductive Step
  | tick (later : ℚ)
  | getMain (accessToken : Option String)
  | getFallback (accountId : String) (accessToken : Option String)
  | setMain (accessToken : String) (entry : QuotaEntry) (accountId : Option String)
      (completeSnapshot : Bool)
  | setFallback (accountId : String) (entry : QuotaEntry) (accessToken : Option String)
      (completeSnapshot : Bool) (identity : Option String)
  | markRateLimited (accountId : String) (resetAtMs : ℚ)
  | clearRateLimited (accountId : String)
  | refreshMain (accessToken : String)
  | refreshFallback (accountId accessToken : String)
  | enterGate
  | lockAnswer (answer : Except QuotaError Bool)
  | fetchAnswer (answer : Except QuotaError AccountQuota)
  | lockReleased (failed : Option QuotaError)
  | updateStorage (storage : Option AccountStorage)
  | seedMainFromStorage (storage : Option AccountStorage) (accessToken : Option String)
  /-- A turn of the loop of `seedFallbacksFromAccounts`. -/
  | seedFallback (account : OAuthAccount)

section

variable (tokenFingerprint : String → String) (dateParse : String → Option ℚ)

def QuotaManager.step (manager : QuotaManager) (now : ℚ) : Step → QuotaManager
  | .tick _ => manager
  | .getMain accessToken => manager.getMain tokenFingerprint accessToken
  | .getFallback accountId accessToken =>
      (manager.getFallback tokenFingerprint accountId accessToken).1
  | .setMain accessToken entry accountId completeSnapshot =>
      manager.setMain tokenFingerprint accessToken entry accountId completeSnapshot
  | .setFallback accountId entry accessToken completeSnapshot identity =>
      manager.setFallback tokenFingerprint accountId entry accessToken completeSnapshot identity
  | .markRateLimited accountId resetAtMs => manager.markRateLimited accountId resetAtMs
  | .clearRateLimited accountId => manager.clearRateLimited accountId
  | .refreshMain accessToken => manager.refreshMain tokenFingerprint accessToken now
  | .refreshFallback accountId accessToken =>
      manager.refreshFallback tokenFingerprint accountId accessToken now
  | .enterGate => manager.enterGate tokenFingerprint now
  | .lockAnswer answer => manager.lockAnswer tokenFingerprint answer now
  | .fetchAnswer answer => manager.fetchAnswer tokenFingerprint dateParse answer now
  | .lockReleased failed => manager.lockReleased tokenFingerprint failed now
  | .updateStorage storage => manager.updateStorage tokenFingerprint dateParse storage now
  | .seedMainFromStorage storage accessToken =>
      manager.seedMainFromStorage tokenFingerprint dateParse storage accessToken
  | .seedFallback account => manager.seedFallback tokenFingerprint account

/-- A mark that replaces another was made anew. -/
def World.step (w : World) (step : Step) : World where
  manager := w.manager.step tokenFingerprint dateParse w.now step
  now := match step with
    | .tick later => max w.now later
    | _ => w.now
  madeAt := match step with
    | .markRateLimited accountId resetAtMs =>
        if (w.manager.rateLimitedUntil accountId).any (resetAtMs < ·) then w.madeAt
        else w.madeAt.set accountId w.now
    | _ => w.madeAt

/-- The world after steps on a new manager, the latest one first. -/
def World.after (storage : Option AccountStorage) (now : ℚ) : List Step → World
  | [] => { manager := .create tokenFingerprint dateParse storage now, now }
  | step :: earlier => (World.after storage now earlier).step tokenFingerprint dateParse step

end

/-! ## What may end a mark -/

/-- A window is there, and none that is there is used up. -/
def NoneExhausted (quota : AccountQuota) : Prop :=
  (quota.primary.isSome ∨ quota.secondary.isSome) ∧
    (∀ window ∈ quota.primary, window.usedPercent < 100) ∧
    ∀ window ∈ quota.secondary, window.usedPercent < 100

theorem quotaLooksHealthy_iff {quota : AccountQuota} :
    quotaLooksHealthy quota = true ↔ NoneExhausted quota := by
  simp [quotaLooksHealthy, hasAnyQuotaWindow, NoneExhausted, and_assoc, Option.all_eq_true]

/-- Both identities are known, and they are not the same. -/
def KnownSwitch (identity previous : Option String) : Prop :=
  ∃ a b, identity = some a ∧ previous = some b ∧ a ≠ "" ∧ b ≠ "" ∧ a ≠ b

theorem differentIdentity_iff {left right : Option String} :
    differentIdentity left right = true ↔ KnownSwitch left right := by
  unfold differentIdentity
  cases left with
  | none => simp [KnownSwitch]
  | some a =>
      cases right with
      | none => by_cases ha : a = "" <;> simp [KnownSwitch, ha]
      | some b =>
          by_cases ha : a = "" <;> by_cases hb : b = "" <;> simp [KnownSwitch, Option.filter, ha, hb]

theorem KnownSwitch.symm {left right : Option String} (h : KnownSwitch left right) :
    KnownSwitch right left := by
  obtain ⟨a, b, ha, hb, hane, hbne, hne⟩ := h
  exact ⟨b, a, hb, ha, hbne, hane, hne.symm⟩

namespace World

/-- The mark of the account stands and its time has not come. -/
def Marked (w : World) (accountId : String) : Prop :=
  ∃ reset ∈ w.manager.rateLimitedUntil accountId, w.now < reset

/-- Read no earlier than the mark of the account was made. -/
def ReadSince (w : World) (accountId : String) (checkedAt : ℚ) : Prop :=
  ∀ made ∈ w.madeAt.get accountId, made ≤ checkedAt

end World

section

variable (tokenFingerprint : String → String)

/-- The manager once the read of the cache that goes before the seed has been made. -/
def World.seeding (w : World) (account : OAuthAccount) : QuotaManager :=
  (w.manager.getFallback tokenFingerprint account.id account.access).1

/-- What a seed stores, unless the cache holds as new an entry. -/
def World.seedEntry (w : World) (account : OAuthAccount) : Option QuotaEntry :=
  (w.manager.persistedEntry account).filter fun entry =>
    !(w.manager.getFallback tokenFingerprint account.id account.access).2.any fun existing =>
      entry.checkedAt ≤ existing.checkedAt

/-- The identity recorded with what a manager caches for a fallback. -/
def QuotaManager.identityOf (manager : QuotaManager) (accountId : String) : Option String :=
  (manager.fallbacks.get accountId).bind (·.accountId)

/-- A step that may end the mark of an account: an explicit clear, a known switch to
another identity, or a snapshot of the account, read since the mark was made, in which
no present window is exhausted. -/
inductive Released (w : World) : Step → String → Prop
  | cleared (accountId : String) : Released w (.clearRateLimited accountId) accountId
  | switchedMain {token entry accountId complete}
      (h : KnownSwitch accountId w.manager.mainQuotaAccountId) :
      Released w (.setMain token entry accountId complete) "main"
  | switchedStorage {storage : Option AccountStorage}
      (h : KnownSwitch (storage.bind (·.mainAccountId)) w.manager.mainQuotaAccountId) :
      Released w (.updateStorage storage) "main"
  | switchedSeed {storage : Option AccountStorage} {token}
      (h : KnownSwitch (storage.bind (·.mainAccountId)) w.manager.mainQuotaAccountId) :
      Released w (.seedMainFromStorage storage token) "main"
  | switchedFallback {accountId entry token complete identity}
      (h : KnownSwitch identity (w.manager.identityOf accountId)) :
      Released w (.setFallback accountId entry token complete identity) accountId
  | switchedAccount {account : OAuthAccount}
      (h : KnownSwitch account.accountId
        ((w.seeding tokenFingerprint account).identityOf account.id)) :
      Released w (.seedFallback account) account.id
  | readMain {token entry accountId complete} (h : NoneExhausted entry.quota)
      (hsince : w.ReadSince "main" entry.checkedAt) :
      Released w (.setMain token entry accountId complete) "main"
  | readFallback {accountId entry token complete identity} (h : NoneExhausted entry.quota)
      (hsince : w.ReadSince accountId entry.checkedAt) :
      Released w (.setFallback accountId entry token complete identity) accountId
  | readAccount {account : OAuthAccount} {entry : QuotaEntry}
      (hentry : w.manager.persistedEntry account = some entry) (h : NoneExhausted entry.quota)
      (hsince : w.ReadSince account.id entry.checkedAt) :
      Released w (.seedFallback account) account.id
  | fetchedMain {token quota} (hrunning : w.manager.running = some (.main token, .fetching))
      (h : NoneExhausted quota) (hsince : w.ReadSince "main" w.now) :
      Released w (.fetchAnswer (.ok quota)) "main"
  | fetchedFallback {accountId token quota}
      (hrunning : w.manager.running = some (.fallback accountId token, .fetching))
      (h : NoneExhausted quota) (hsince : w.ReadSince accountId w.now) :
      Released w (.fetchAnswer (.ok quota)) accountId

/-- The step hands over no healthy snapshot that is older than the mark it would end. -/
def Timely (w : World) : Step → Prop
  | .setMain _ entry accountId _ =>
      NoneExhausted entry.quota → w.Marked "main" →
        KnownSwitch accountId w.manager.mainQuotaAccountId ∨ w.ReadSince "main" entry.checkedAt
  | .setFallback accountId entry _ _ identity =>
      NoneExhausted entry.quota → w.Marked accountId →
        KnownSwitch identity (w.manager.identityOf accountId) ∨
          w.ReadSince accountId entry.checkedAt
  | .seedFallback account =>
      ∀ entry ∈ w.seedEntry tokenFingerprint account,
        NoneExhausted entry.quota → w.Marked account.id →
          KnownSwitch account.accountId
              ((w.seeding tokenFingerprint account).identityOf account.id) ∨
            w.ReadSince account.id entry.checkedAt
  | _ => True

/-! ## What each operation does to the marks -/

/-- No mark but that of the account may go, and that one for the reason. -/
def EndsOnly (m m' : QuotaManager) (accountId : String) (reason : Prop) : Prop :=
  ∀ id, m'.rateLimitedUntil id = m.rateLimitedUntil id ∨
    (m'.rateLimitedUntil id = none ∧ id = accountId ∧ reason)

section Operations

variable {dateParse : String → Option ℚ} {m m' : QuotaManager} {accountId id : String} {reason : Prop}

theorem EndsOnly.of_eq (h : m'.rateLimitedUntilMap = m.rateLimitedUntilMap) :
    EndsOnly m m' accountId reason := fun id =>
  .inl (congrArg (fun marks : Table ℚ => marks.get id) h)

theorem EndsOnly.congr {m'' : QuotaManager} (h : EndsOnly m m' accountId reason)
    (hmarks : m''.rateLimitedUntilMap = m'.rateLimitedUntilMap) :
    EndsOnly m m'' accountId reason := by
  intro id
  have hget : m''.rateLimitedUntil id = m'.rateLimitedUntil id :=
    congrArg (fun marks : Table ℚ => marks.get id) hmarks
  rw [hget]
  exact h id

theorem rateLimitedUntil_clear (m : QuotaManager) (accountId id : String) :
    (m.clearRateLimited accountId).rateLimitedUntil id =
      if id = accountId then none else m.rateLimitedUntil id :=
  Table.get_delete ..

theorem EndsOnly.clear (h : EndsOnly m m' accountId reason) (hreason : reason) :
    EndsOnly m (m'.clearRateLimited accountId) accountId reason := by
  intro id
  rw [rateLimitedUntil_clear]
  split_ifs with heq
  · exact .inr ⟨rfl, heq, hreason⟩
  · exact h id

/-- A clear that depends on a test. -/
theorem EndsOnly.clear_if (h : EndsOnly m m' accountId reason) {test : Bool}
    (hreason : test = true → reason) :
    EndsOnly m (if test then m'.clearRateLimited accountId else m') accountId reason := by
  split_ifs with htest
  · exact h.clear (hreason htest)
  · exact h

theorem rateLimitedUntil_mark (m : QuotaManager) (accountId id : String) (resetAtMs : ℚ) :
    (m.markRateLimited accountId resetAtMs).rateLimitedUntil id =
      if id = accountId ∧ (m.rateLimitedUntil accountId).any (resetAtMs < ·) = false then
        some resetAtMs
      else m.rateLimitedUntil id := by
  unfold QuotaManager.markRateLimited QuotaManager.rateLimitedUntil
  by_cases hlater : (m.rateLimitedUntilMap.get accountId).any (resetAtMs < ·) = true
  · rw [if_pos hlater, if_neg (by simp [hlater])]
  · rw [if_neg hlater]
    by_cases heq : id = accountId
    · rw [if_pos ⟨heq, by simpa using hlater⟩, heq]
      exact Table.get_set_self ..
    · rw [if_neg fun h => heq h.1]
      exact Table.get_set_of_ne heq ..

/-! ### The operations that touch no mark -/

theorem dropMain_marks (m : QuotaManager) (fp : String) :
    (m.dropMain fp).rateLimitedUntilMap = m.rateLimitedUntilMap := by
  unfold QuotaManager.dropMain
  split_ifs <;> rfl

theorem getMain_marks (m : QuotaManager) (accessToken : Option String) :
    (m.getMain tokenFingerprint accessToken).rateLimitedUntilMap = m.rateLimitedUntilMap := by
  unfold QuotaManager.getMain
  split
  · rfl
  · split_ifs
    · exact dropMain_marks ..
    · rfl

theorem getFallback_marks (m : QuotaManager) (accountId : String) (accessToken : Option String) :
    (m.getFallback tokenFingerprint accountId accessToken).1.rateLimitedUntilMap =
      m.rateLimitedUntilMap := by
  unfold QuotaManager.getFallback
  split
  · split_ifs <;> rfl
  · rfl

theorem refreshMain_marks (m : QuotaManager) (accessToken : String) (now : ℚ) :
    (m.refreshMain tokenFingerprint accessToken now).rateLimitedUntilMap =
      m.rateLimitedUntilMap := by
  unfold QuotaManager.refreshMain
  simp only
  split_ifs <;> exact dropMain_marks ..

theorem refreshFallback_marks (m : QuotaManager) (accountId accessToken : String) (now : ℚ) :
    (m.refreshFallback tokenFingerprint accountId accessToken now).rateLimitedUntilMap =
      m.rateLimitedUntilMap := by
  unfold QuotaManager.refreshFallback
  simp only
  split_ifs
  · rfl
  · exact getFallback_marks ..
  · rfl

theorem finish_marks (m : QuotaManager) (fetch : Fetch) (failure : Option QuotaError) (now : ℚ) :
    (m.finish tokenFingerprint fetch failure now).rateLimitedUntilMap = m.rateLimitedUntilMap := by
  unfold QuotaManager.finish QuotaManager.handleFallbackFetchError
  cases fetch with
  | main accessToken => rfl
  | fallback accountId accessToken =>
      cases failure with
      | none => rfl
      | some error =>
          simp only
          split_ifs <;> rfl

theorem enterGate_marks (m : QuotaManager) (now : ℚ) :
    (m.enterGate tokenFingerprint now).rateLimitedUntilMap = m.rateLimitedUntilMap := by
  unfold QuotaManager.enterGate
  split
  · split
    · simp only
      split_ifs
      · exact finish_marks ..
      · rfl
    · simp only
      split_ifs
      · exact (finish_marks ..).trans (getFallback_marks ..)
      · exact (finish_marks ..).trans (getFallback_marks ..)
      · rfl
  · rfl

theorem lockAnswer_marks (m : QuotaManager) (answer : Except QuotaError Bool) (now : ℚ) :
    (m.lockAnswer tokenFingerprint answer now).rateLimitedUntilMap = m.rateLimitedUntilMap := by
  unfold QuotaManager.lockAnswer
  split
  · split
    · rfl
    · exact (finish_marks ..).trans (getFallback_marks ..)
    · exact finish_marks ..
    · exact finish_marks ..
  · rfl

theorem lockReleased_marks (m : QuotaManager) (failed : Option QuotaError) (now : ℚ) :
    (m.lockReleased tokenFingerprint failed now).rateLimitedUntilMap = m.rateLimitedUntilMap := by
  unfold QuotaManager.lockReleased
  split
  · exact finish_marks ..
  · rfl

/-! ### The operations that may end one -/

theorem setMain_ends (m : QuotaManager) (accessToken : String) (entry : QuotaEntry)
    (accountId : Option String) (complete : Bool) :
    EndsOnly m (m.setMain tokenFingerprint accessToken entry accountId complete) "main"
      (KnownSwitch accountId m.mainQuotaAccountId ∨ NoneExhausted entry.quota) := by
  have hswitched : EndsOnly m
      (if differentIdentity m.mainQuotaAccountId accountId then m.clearRateLimited "main" else m)
      "main" (KnownSwitch accountId m.mainQuotaAccountId ∨ NoneExhausted entry.quota) :=
    EndsOnly.clear_if (.of_eq rfl) fun h => Or.inl (differentIdentity_iff.mp h).symm
  unfold QuotaManager.setMain
  by_cases hempty : (!complete && !hasAnyQuotaWindow entry.quota) = true
  · rw [if_pos hempty]
    exact .of_eq rfl
  · rw [if_neg hempty]
    refine EndsOnly.clear_if ?_ fun h => Or.inr (quotaLooksHealthy_iff.mp h)
    exact hswitched.congr rfl

theorem setFallback_ends (m : QuotaManager) (accountId : String) (entry : QuotaEntry)
    (accessToken : Option String) (complete : Bool) (identity : Option String) :
    EndsOnly m (m.setFallback tokenFingerprint accountId entry accessToken complete identity)
      accountId (KnownSwitch identity (m.identityOf accountId) ∨ NoneExhausted entry.quota) := by
  have hswitched : EndsOnly m
      (if differentIdentity identity (m.identityOf accountId) then m.clearRateLimited accountId
        else m)
      accountId (KnownSwitch identity (m.identityOf accountId) ∨ NoneExhausted entry.quota) :=
    EndsOnly.clear_if (.of_eq rfl) fun h => Or.inl (differentIdentity_iff.mp h)
  unfold QuotaManager.setFallback
  by_cases hempty : (!complete && !hasAnyQuotaWindow entry.quota) = true
  · rw [if_pos hempty]
    exact .of_eq rfl
  · rw [if_neg hempty]
    refine EndsOnly.clear_if ?_ fun h => Or.inr (quotaLooksHealthy_iff.mp h)
    exact hswitched.congr rfl

theorem seedMainFromStorage_ends (m : QuotaManager) (storage : Option AccountStorage)
    (accessToken : Option String) :
    EndsOnly m (m.seedMainFromStorage tokenFingerprint dateParse storage accessToken) "main"
      (KnownSwitch (storage.bind (·.mainAccountId)) m.mainQuotaAccountId) := by
  have hswitched : EndsOnly m
      (if differentIdentity m.mainQuotaAccountId (storage.bind (·.mainAccountId)) then
        m.clearRateLimited "main" else m)
      "main" (KnownSwitch (storage.bind (·.mainAccountId)) m.mainQuotaAccountId) :=
    EndsOnly.clear_if (.of_eq rfl) fun h => (differentIdentity_iff.mp h).symm
  unfold QuotaManager.seedMainFromStorage
  cases QuotaManager.getPersistedMainQuota storage with
  | none => exact .of_eq rfl
  | some persisted =>
      have hkept : ∀ c d : Prop, ∀ [Decidable c] [Decidable d] (stored : QuotaManager),
          stored.rateLimitedUntilMap = (if differentIdentity m.mainQuotaAccountId
            (storage.bind (·.mainAccountId)) then m.clearRateLimited "main" else m).rateLimitedUntilMap →
          EndsOnly m (if c then m else if d then m else stored) "main"
            (KnownSwitch (storage.bind (·.mainAccountId)) m.mainQuotaAccountId) := by
        intro c d _ _ stored hstored
        split_ifs
        · exact .of_eq rfl
        · exact .of_eq rfl
        · exact hswitched.congr hstored
      exact hkept _ _ _ rfl

/-- A healthy snapshot that is stored ends the mark. -/
theorem setMain_healthy {m : QuotaManager} {accessToken : String} {entry : QuotaEntry}
    {accountId : Option String} {complete : Bool} (h : NoneExhausted entry.quota) :
    (m.setMain tokenFingerprint accessToken entry accountId complete).rateLimitedUntil "main" =
      none := by
  have hwindow : hasAnyQuotaWindow entry.quota = true := by
    simpa [hasAnyQuotaWindow] using h.1
  unfold QuotaManager.setMain
  rw [hwindow, if_neg (by simp), if_pos (quotaLooksHealthy_iff.mpr h), rateLimitedUntil_clear,
    if_pos rfl]

theorem setFallback_healthy {m : QuotaManager} {accountId : String} {entry : QuotaEntry}
    {accessToken : Option String} {complete : Bool} {identity : Option String}
    (h : NoneExhausted entry.quota) :
    (m.setFallback tokenFingerprint accountId entry accessToken complete identity).rateLimitedUntil
      accountId = none := by
  have hwindow : hasAnyQuotaWindow entry.quota = true := by
    simpa [hasAnyQuotaWindow] using h.1
  unfold QuotaManager.setFallback
  rw [hwindow, if_neg (by simp), if_pos (quotaLooksHealthy_iff.mpr h), rateLimitedUntil_clear,
    if_pos rfl]

variable (dateParse) in
theorem fetchAnswer_ends (m : QuotaManager) (answer : Except QuotaError AccountQuota) (now : ℚ) :
    (m.fetchAnswer tokenFingerprint dateParse answer now).rateLimitedUntilMap =
        m.rateLimitedUntilMap ∨
      (∃ token quota, answer = .ok quota ∧ m.running = some (.main token, .fetching) ∧
        EndsOnly m (m.fetchAnswer tokenFingerprint dateParse answer now) "main"
          (NoneExhausted quota)) ∨
      ∃ accountId token quota, answer = .ok quota ∧
        m.running = some (.fallback accountId token, .fetching) ∧
        EndsOnly m (m.fetchAnswer tokenFingerprint dateParse answer now) accountId
          (NoneExhausted quota) := by
  unfold QuotaManager.fetchAnswer
  split
  · rename_i token hrunning
    cases answer with
    | ok quota =>
        refine .inr (.inl ⟨token, quota, rfl, hrunning, ?_⟩)
        have hcleared : EndsOnly m
            (if quotaLooksHealthy quota then m.clearRateLimited "main" else m) "main"
            (NoneExhausted quota) :=
          EndsOnly.clear_if (.of_eq rfl) fun h => quotaLooksHealthy_iff.mp h
        refine hcleared.congr ?_
        by_cases h : quotaLooksHealthy quota = true
        · simp only [if_pos h]
          rfl
        · simp only [if_neg h]
    | error error =>
        refine .inl ?_
        simp only [QuotaManager.handleMainFetchError]
        split_ifs <;> rfl
  · rename_i accountId token hrunning
    cases answer with
    | ok quota =>
        -- no identity comes with the answer, so it is no known switch
        refine .inr (.inr ⟨accountId, token, quota, rfl, hrunning, fun id => ?_⟩)
        refine (setFallback_ends tokenFingerprint m accountId _ (some token) true none id).imp_right
          fun h => ⟨h.1, h.2.1, h.2.2.resolve_left ?_⟩
        rintro ⟨a, -, ha, -⟩
        cases ha
    | error error => exact .inl rfl
  · exact .inl rfl

theorem seedFallback_ends (m : QuotaManager) (account : OAuthAccount) :
    (m.seedFallback tokenFingerprint account).rateLimitedUntilMap = m.rateLimitedUntilMap ∨
      ∃ entry, m.persistedEntry account = some entry ∧
        ((m.getFallback tokenFingerprint account.id account.access).2.any fun existing =>
          entry.checkedAt ≤ existing.checkedAt) = false ∧
        m.seedFallback tokenFingerprint account =
          (m.getFallback tokenFingerprint account.id account.access).1.setFallback tokenFingerprint
            account.id entry account.access false account.accountId := by
  unfold QuotaManager.seedFallback
  cases hentry : m.persistedEntry account with
  | none => exact .inl rfl
  | some entry =>
      simp only
      split_ifs with hnew
      · exact .inl (getFallback_marks ..)
      · exact .inr ⟨entry, rfl, by simpa using hnew, rfl⟩

end Operations

/-! ## Every step -/

variable (dateParse : String → Option ℚ)

/-- What a step keeps: no mark moves to an earlier time, none ends before its time
without a reason, and policy is shown no snapshot of another identity. -/
structure MarksKept (w : World) (step : Step) : Prop where
  later : ∀ id old new, w.manager.rateLimitedUntil id = some old →
    (w.step tokenFingerprint dateParse step).manager.rateLimitedUntil id = some new → old ≤ new
  released : ∀ id, w.Marked id →
    (w.step tokenFingerprint dateParse step).manager.rateLimitedUntil id = none →
      Released tokenFingerprint w step id
  main : ∀ accountId entry, w.manager.peekMainForPolicy accountId = some entry →
    ¬KnownSwitch accountId w.manager.mainQuotaAccountId
  fallback : ∀ accountId identity entry,
    w.manager.peekFallbackForPolicy accountId identity = some entry →
      ¬KnownSwitch identity entry.accountId

section Steps

variable {tokenFingerprint} {dateParse} {w : World} {step : Step}

theorem peekMainForPolicy_identity {m : QuotaManager} {accountId : Option String}
    {entry : QuotaEntry} (h : m.peekMainForPolicy accountId = some entry) :
    ¬KnownSwitch accountId m.mainQuotaAccountId := by
  intro hswitch
  rw [QuotaManager.peekMainForPolicy, if_pos (differentIdentity_iff.mpr hswitch)] at h
  cases h

theorem peekFallbackForPolicy_identity {m : QuotaManager} {accountId : String}
    {identity : Option String} {entry : QuotaEntry}
    (h : m.peekFallbackForPolicy accountId identity = some entry) :
    ¬KnownSwitch identity entry.accountId := by
  intro hswitch
  have hpassed := (Option.filter_eq_some_iff.mp h).2
  rw [differentIdentity_iff.mpr hswitch] at hpassed
  cases hpassed

theorem MarksKept.of_ends {accountId : String} {reason : Prop}
    (h : EndsOnly w.manager (w.step tokenFingerprint dateParse step).manager accountId reason)
    (hreason : w.Marked accountId → reason → Released tokenFingerprint w step accountId) :
    MarksKept tokenFingerprint dateParse w step where
  later := by
    intro id old new hold hnew
    rcases h id with hsame | ⟨hnone, -⟩
    · rw [hsame, hold] at hnew
      exact le_of_eq (Option.some.inj hnew)
    · rw [hnone] at hnew
      cases hnew
  released := by
    rintro id ⟨reset, hreset, htime⟩ hgone
    rcases h id with hsame | ⟨-, rfl, hr⟩
    · rw [hsame] at hgone
      rw [hgone] at hreset
      cases hreset
    · exact hreason ⟨reset, hreset, htime⟩ hr
  main := fun _ _ h => peekMainForPolicy_identity h
  fallback := fun _ _ _ h => peekFallbackForPolicy_identity h

theorem MarksKept.of_same
    (h : (w.step tokenFingerprint dateParse step).manager.rateLimitedUntilMap =
      w.manager.rateLimitedUntilMap) :
    MarksKept tokenFingerprint dateParse w step :=
  have hends : EndsOnly w.manager (w.step tokenFingerprint dateParse step).manager "" False :=
    .of_eq h
  .of_ends hends fun _ hfalse => hfalse.elim

/-- A clock that has passed every mark's making. -/
def World.Clocked (w : World) : Prop := ∀ id, ∀ made ∈ w.madeAt.get id, made ≤ w.now

theorem marksKept_of_timely (hclock : w.Clocked) (h : Timely tokenFingerprint w step) :
    MarksKept tokenFingerprint dateParse w step := by
  cases step with
  | tick later => exact .of_same rfl
  | getMain accessToken => exact .of_same (getMain_marks ..)
  | getFallback accountId accessToken => exact .of_same (getFallback_marks ..)
  | setMain accessToken entry accountId complete =>
      refine .of_ends (setMain_ends tokenFingerprint w.manager accessToken entry accountId complete)
        fun hmarked hreason => ?_
      rcases hreason with hswitch | hhealthy
      · exact .switchedMain hswitch
      · rcases h hhealthy hmarked with hswitch | hsince
        · exact .switchedMain hswitch
        · exact .readMain hhealthy hsince
  | setFallback accountId entry accessToken complete identity =>
      refine .of_ends (setFallback_ends tokenFingerprint w.manager accountId entry accessToken complete
        identity) fun hmarked hreason => ?_
      rcases hreason with hswitch | hhealthy
      · exact .switchedFallback hswitch
      · rcases h hhealthy hmarked with hswitch | hsince
        · exact .switchedFallback hswitch
        · exact .readFallback hhealthy hsince
  | markRateLimited accountId resetAtMs =>
      have hmark := fun id => rateLimitedUntil_mark w.manager accountId id resetAtMs
      refine ⟨fun id old new hold hnew => ?_, fun id hmarked hgone => ?_,
        fun _ _ h => peekMainForPolicy_identity h, fun _ _ _ h => peekFallbackForPolicy_identity h⟩
      · rw [World.step, QuotaManager.step, hmark] at hnew
        split_ifs at hnew with hset
        · -- the reset replaces one that is not later
          obtain ⟨rfl, hlater⟩ := hset
          rw [hold, Option.any_some, decide_eq_false_iff_not] at hlater
          exact (Option.some.inj hnew) ▸ not_lt.mp hlater
        · rw [hold] at hnew
          exact le_of_eq (Option.some.inj hnew)
      · obtain ⟨reset, hreset, -⟩ := hmarked
        rw [World.step, QuotaManager.step, hmark] at hgone
        split_ifs at hgone
        rw [hgone] at hreset
        cases hreset
  | clearRateLimited accountId =>
      have hends : EndsOnly w.manager (w.manager.clearRateLimited accountId) accountId True :=
        (EndsOnly.of_eq rfl).clear trivial
      exact .of_ends hends fun _ _ => .cleared accountId
  | refreshMain accessToken => exact .of_same (refreshMain_marks ..)
  | refreshFallback accountId accessToken => exact .of_same (refreshFallback_marks ..)
  | enterGate => exact .of_same (enterGate_marks ..)
  | lockAnswer answer => exact .of_same (lockAnswer_marks ..)
  | fetchAnswer answer =>
      rcases fetchAnswer_ends tokenFingerprint dateParse w.manager answer w.now with
        hsame | ⟨token, quota, rfl, hrunning, hends⟩ | ⟨accountId, token, quota, rfl, hrunning, hends⟩
      · exact .of_same hsame
      · exact .of_ends hends fun _ hhealthy =>
          .fetchedMain hrunning hhealthy (hclock "main")
      · exact .of_ends hends fun _ hhealthy =>
          .fetchedFallback hrunning hhealthy (hclock accountId)
  | lockReleased failed => exact .of_same (lockReleased_marks ..)
  | updateStorage storage =>
      refine .of_ends (EndsOnly.congr (seedMainFromStorage_ends tokenFingerprint
        { w.manager with storage := storage } storage none) rfl) fun _ hswitch => ?_
      exact .switchedStorage hswitch
  | seedMainFromStorage storage accessToken =>
      exact .of_ends (seedMainFromStorage_ends tokenFingerprint w.manager storage accessToken)
        fun _ hswitch => .switchedSeed hswitch
  | seedFallback account =>
      rcases seedFallback_ends tokenFingerprint w.manager account with
        hsame | ⟨entry, hentry, hnew, hset⟩
      · exact .of_same hsame
      · have hread : (w.seeding tokenFingerprint account).rateLimitedUntilMap =
            w.manager.rateLimitedUntilMap := getFallback_marks ..
        have hends : EndsOnly w.manager
            (w.step tokenFingerprint dateParse (.seedFallback account)).manager account.id
            (KnownSwitch account.accountId
                ((w.seeding tokenFingerprint account).identityOf account.id) ∨
              NoneExhausted entry.quota) := by
          intro id
          have hmark : (w.seeding tokenFingerprint account).rateLimitedUntil id =
              w.manager.rateLimitedUntil id :=
            congrArg (fun marks : Table ℚ => marks.get id) hread
          have hafter : (w.step tokenFingerprint dateParse (.seedFallback account)).manager =
              w.manager.seedFallback tokenFingerprint account := rfl
          rw [hafter, hset, ← hmark]
          exact setFallback_ends tokenFingerprint (w.seeding tokenFingerprint account) account.id
            entry account.access false account.accountId id
        have hstored : entry ∈ w.seedEntry tokenFingerprint account :=
          Option.filter_eq_some_iff.mpr ⟨hentry, by simpa using hnew⟩
        refine .of_ends hends fun hmarked hreason => ?_
        rcases hreason with hswitch | hhealthy
        · exact .switchedAccount hswitch
        · rcases h entry hstored hhealthy hmarked with hswitch | hsince
          · exact .switchedAccount hswitch
          · exact .readAccount hentry hhealthy hsince

/-- Where a step keeps the marks, it handed over nothing that is too old. -/
theorem timely_of_marksKept (h : MarksKept tokenFingerprint dateParse w step) :
    Timely tokenFingerprint w step := by
  cases step with
  | setMain accessToken entry accountId complete =>
      intro hhealthy hmarked
      cases h.released "main" hmarked (setMain_healthy tokenFingerprint hhealthy) with
      | switchedMain hswitch => exact .inl hswitch
      | readMain _ hsince => exact .inr hsince
  | setFallback accountId entry accessToken complete identity =>
      intro hhealthy hmarked
      cases h.released accountId hmarked (setFallback_healthy tokenFingerprint hhealthy) with
      | switchedFallback hswitch => exact .inl hswitch
      | readFallback _ hsince => exact .inr hsince
  | seedFallback account =>
      intro entry hentry hhealthy hmarked
      obtain ⟨hpersisted, hnew⟩ := Option.filter_eq_some_iff.mp hentry
      have hgone : (w.step tokenFingerprint dateParse
          (.seedFallback account)).manager.rateLimitedUntil account.id = none := by
        have hafter : (w.step tokenFingerprint dateParse (.seedFallback account)).manager =
            w.manager.seedFallback tokenFingerprint account := rfl
        rw [hafter, QuotaManager.seedFallback, hpersisted]
        simp only
        rw [if_neg (by simpa using hnew)]
        exact setFallback_healthy tokenFingerprint hhealthy
      cases h.released account.id hmarked hgone with
      | switchedAccount hswitch => exact .inl hswitch
      | readAccount hentry' _ hsince =>
          rw [hpersisted] at hentry'
          cases hentry'
          exact .inr hsince
  | _ => trivial

theorem World.Clocked.next (h : w.Clocked) (step : Step) :
    (w.step tokenFingerprint dateParse step).Clocked := by
  have hlater : w.now ≤ (w.step tokenFingerprint dateParse step).now := by
    cases step <;> first | exact le_refl _ | exact le_max_left ..
  have hkept : ∀ id, ∀ made ∈ w.madeAt.get id, made ≤ (w.step tokenFingerprint dateParse step).now :=
    fun id made hmade => (h id made hmade).trans hlater
  cases step with
  | markRateLimited accountId resetAtMs =>
      intro id made hmade
      simp only [World.step] at hmade
      split_ifs at hmade
      · exact hkept id made hmade
      · rw [Table.get_set] at hmade
        split_ifs at hmade
        · exact le_of_eq (Option.some.inj hmade).symm
        · exact hkept id made hmade
  | _ => exact hkept

theorem clocked_after (storage : Option AccountStorage) (now : ℚ) (steps : List Step) :
    (World.after tokenFingerprint dateParse storage now steps).Clocked := by
  induction steps with
  | nil =>
      intro id made hmade
      cases hmade
  | cons step earlier ih => exact ih.next step

end Steps

/-- In every run of the calls on a new manager, the marks are kept at each step exactly
where no step hands over a healthy snapshot that is older than the mark it would end. -/
theorem marksKept_iff (storage : Option AccountStorage) (now : ℚ) (steps : List Step) :
    (∀ later step earlier, steps = later ++ step :: earlier →
        MarksKept tokenFingerprint dateParse
          (World.after tokenFingerprint dateParse storage now earlier) step) ↔
      ∀ later step earlier, steps = later ++ step :: earlier →
        Timely tokenFingerprint (World.after tokenFingerprint dateParse storage now earlier) step := by
  constructor
  · intro h later step earlier hsplit
    exact timely_of_marksKept (h later step earlier hsplit)
  · intro h later step earlier hsplit
    exact marksKept_of_timely (clocked_after storage now earlier) (h later step earlier hsplit)

end

/-! ## A seed older than the mark -/

section StaleSeed

/-- Quota of the disk in which the only window is half used, read at 5. -/
def staleAccount : OAuthAccount where
  id := "fb-1"
  quota := some { primary := some { usedPercent := 50, remainingPercent := 50, checkedAt := some 5 } }

/-- A mark of a stream that was made at 10 and stands until 100. -/
def staleRun : List Step := [.seedFallback staleAccount, .markRateLimited "fb-1" 100]

/-- The seed ends the mark, although the quota was read before the mark was made. -/
theorem staleSeed_ends_mark :
    ¬∀ later step earlier, staleRun = later ++ step :: earlier →
      MarksKept (fun token => token) (fun _ => none)
        (World.after (fun token => token) (fun _ => none) none 10 earlier) step := by
  intro h
  have htimely := timely_of_marksKept
    (h [] (.seedFallback staleAccount) [.markRateLimited "fb-1" 100] rfl)
  have hentry : World.seedEntry (fun token => token)
      (World.after (fun token => token) (fun _ => none) none 10 [.markRateLimited "fb-1" 100])
      staleAccount =
        some { quota := { primary := some { usedPercent := 50, remainingPercent := 50,
                                            checkedAt := some 5 } }
               checkedAt := 5
               refreshAfter := 5 + getQuotaCheckIntervalMs none } := rfl
  have hhealthy : NoneExhausted { primary := some { usedPercent := 50, remainingPercent := 50,
                                                    checkedAt := some 5 } } := by
    refine quotaLooksHealthy_iff.mp ?_
    decide
  rcases htimely _ hentry hhealthy ⟨100, rfl, by decide⟩ with ⟨a, _, ha, -⟩ | hsince
  · cases ha
  · exact absurd (hsince 10 rfl) (by decide)

end StaleSeed

end Quota
