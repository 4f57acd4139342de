import OpenaiAuth.RefreshAllQuota.Pass

/-! # Under whose name a reading is filed

The identity of the main account is taken from a storage that is loaded once, its token
from a login that is read later. Where both are of one account (`Bound`), and the
readings that count as fresh are of the account signed in (`Told`), a pass files nothing
under another's name and skips no poll for another's reading.

Main result: `refresh_all_quota`.
-/

namespace RefreshAllQuota

open Quota (QuotaManager QuotaEntry truthy)
open Sidebar (AccountQuota)
open Request (differentIdentity)

/-! ## What is right -/

section Right

variable (deps : RefreshAllQuotaDeps)

/-- A stored reading bears the identity of its token's account or none, and the readings
that a poll is skipped for are of the account signed in. -/
def Effect.Right : Effect → Prop
  | .setMain manager token entry accountId =>
      ∀ label ∈ truthy (manager.setMain deps.tokenFingerprint token.text entry accountId
        true).mainQuotaAccountId, label = token.account
  | .setFallback manager id entry token identity =>
      ∀ label ∈ truthy (((manager.setFallback deps.tokenFingerprint id entry (some token.text) true
        identity).fallbacks.get id).bind (·.accountId)), label = token.account
  | .skipped readings signedIn => ∀ reading ∈ readings, signedIn = some reading.account

/-- The identity a reading is asked for under is that of the account signed in, its own
label is that of its account, and one that either side does not know is of the account
signed in. -/
structure Reading.Told (reading : Reading) (identity signedIn : Option String) : Prop where
  current : ∀ id ∈ truthy identity, signedIn = some id
  label : ∀ label ∈ truthy reading.label, reading.account = label
  unknown : truthy identity = none ∨ truthy reading.label = none → signedIn = some reading.account

/-- The identity a reading is stored under is that of its token's account; where it is
not known, the label that stays is. -/
structure Bound (identity previous : Option String) (account : String) : Prop where
  own : ∀ id ∈ truthy identity, id = account
  unknown : truthy identity = none → ∀ label ∈ truthy previous, label = account

variable (options : RefreshAllQuotaOptions) (world : Moment → World)

/-- The row that a usage reading of the row is obtained with, and when. -/
def askedWith (n : ℕ) (row : OAuthAccount) : Option (OAuthAccount × World) :=
  match (world (.row n .usage)).usage with
  | .ok _ => some (refreshedRow deps options world n row, world (.row n .usage))
  | .error error =>
      if error.status = some 401 then
        (forcedRow deps options world n row).toOption.map fun row => (row, world (.row n .again))
      else none

/-- The row is one that the pass polls. -/
structure Attempted (storage : AccountStorage) (n : ℕ) (row : OAuthAccount) : Prop where
  here : storage.accounts[n]? = some (.oauth row)
  asked : isPassedOver options world n row.id = false
  unshielded : asMain options world n = false → isShieldedMainRow (some storage) row = false
  enabled : row.enabled ≠ some false

/-- No login under another account comes between the reads of a pass, and what it takes
for fresh is what it says it is. -/
structure Steady : Prop where
  slotJudged : ∀ auth, (world .auth).auth = .ok auth → pollsMain options = true →
    isPoolMainPlaceholder auth = false →
    ∀ reading ∈ mainReadings (sharedSidebarState deps world) (world .auth)
        (liveMainAccountId deps world),
      isFresh deps (world .auth).now reading.checkedAt = true →
      reading.Told (liveMainAccountId deps world) (some auth.account)
  slotStored : ∀ auth, (world .auth).auth = .ok auth → pollsMain options = true →
    isPoolMainPlaceholder auth = false →
    ∀ token, slotToken world auth = .ok (some token) →
      Bound (liveMainAccountId deps world) (world .usage).manager.mainQuotaAccountId token.account
  rowJudged : ∀ storage, loadedStorage world = some storage → ∀ n row,
    Attempted options world storage n row →
    ∀ reading ∈ rowReadings deps options world n row,
      isFresh deps (world (.row n .judged)).now reading.checkedAt = true →
      reading.Told (rowIdentity deps options world n row) (signedIn (world (.row n .judged)) row.id)
  mainRowStored : ∀ storage, loadedStorage world = some storage → ∀ n row,
    Attempted options world storage n row → asMain options world n = true →
    ∀ asked ∈ askedWith deps options world n row,
      Bound (rowIdentity deps options world n row) asked.2.manager.mainQuotaAccountId
        asked.1.account
  rowStored : ∀ storage, loadedStorage world = some storage → ∀ n row,
    Attempted options world storage n row → asMain options world n = false →
    ∀ asked ∈ askedWith deps options world n row, asked.1.accountId = none →
      ∀ label ∈ truthy ((asked.2.manager.fallbacks.get row.id).bind (·.accountId)),
        label = asked.1.account

end Right

/-! ## Identities -/

section Identities

variable {deps : RefreshAllQuotaDeps} {identity signedIn label : Option String}

theorem differentIdentity_eq_false {left right : Option String}
    (same : differentIdentity left right = false) :
    truthy left = none ∨ truthy right = none ∨ truthy left = truthy right := by
  unfold differentIdentity at same
  rcases hleft : truthy left with _ | l
  · exact .inl rfl
  rcases hright : truthy right with _ | r
  · exact .inr (.inl rfl)
  unfold truthy at hleft hright
  rw [hleft, hright] at same
  have equal : l = r := by simpa using same
  rw [equal]
  exact .inr (.inr rfl)

/-- The gate takes a reading only where no two known identities differ. -/
theorem Reading.Told.right {reading : Reading} (told : reading.Told identity signedIn)
    (same : differentIdentity identity reading.label = false) :
    signedIn = some reading.account := by
  rcases differentIdentity_eq_false same with unknown | unknown | equal
  · exact told.unknown (.inl unknown)
  · exact told.unknown (.inr unknown)
  -- both are known, so the label is the identity of the account signed in
  · rcases known : truthy identity with _ | id
    · exact told.unknown (.inl known)
    rw [told.current id (by rw [known]; rfl), told.label id (by rw [← equal, known]; rfl)]

theorem differentIdentity_self (identity : Option String) :
    differentIdentity identity identity = false := by
  unfold differentIdentity
  cases identity.filter (· ≠ "") <;> simp

theorem SidebarQuotaReading.label_of_mem {quota : SidebarQuotaReading} {reading : Reading}
    (mem : reading ∈ quota.readings label) : reading.label = label := by
  unfold SidebarQuotaReading.readings at mem
  obtain ⟨checkedAt, _, rfl⟩ := List.mem_map.mp mem
  rfl

variable {sidebar : Option SidebarQuotaSnapshot} {world : World}

theorem same_of_mem_shared {quota : Option SidebarQuotaReading} {reading : Reading}
    (mem : reading ∈ quota.elim [] fun quota => quota.readings identity) :
    differentIdentity identity reading.label = false := by
  cases quota with
  | none => cases mem
  | some quota =>
      rw [SidebarQuotaReading.label_of_mem mem]
      exact differentIdentity_self identity

theorem same_of_mem_mainReadings {reading : Reading}
    (mem : reading ∈ mainReadings sidebar world identity) :
    differentIdentity identity reading.label = false := by
  unfold mainReadings at mem
  rcases List.mem_append.mp mem with held | shared
  · rw [Option.mem_toList, Option.map_eq_some_iff] at held
    obtain ⟨entry, peeked, rfl⟩ := held
    unfold QuotaManager.peekMainForPolicy at peeked
    by_cases different : differentIdentity identity world.manager.mainQuotaAccountId = true
    · rw [if_pos different] at peeked
      cases peeked
    · exact Bool.eq_false_iff.mpr different
  · exact same_of_mem_shared shared

theorem same_of_mem_fallbackReadings {id : String} {reading : Reading}
    (mem : reading ∈ fallbackReadings sidebar world id identity) :
    differentIdentity identity reading.label = false := by
  unfold fallbackReadings at mem
  rcases List.mem_append.mp mem with held | shared
  · rw [Option.mem_toList, Option.map_eq_some_iff] at held
    obtain ⟨entry, peeked, rfl⟩ := held
    unfold QuotaManager.peekFallbackForPolicy at peeked
    have kept := (Option.filter_eq_some_iff.mp peeked).2
    simpa using kept
  · exact same_of_mem_shared shared

end Identities

/-! ## Stores -/

section Stores

variable {deps : RefreshAllQuotaDeps} {manager : QuotaManager} {token : Token} {entry : QuotaEntry}
  {identity : Option String} {id : String}

theorem truthy_truthy (text : Option String) : truthy (truthy text) = truthy text := by
  unfold truthy
  cases text with
  | none => rfl
  | some text => by_cases empty : text = "" <;> simp [empty]

theorem mainQuotaAccountId_setMain (fp : String → String) (access : String) :
    (manager.setMain fp access entry identity true).mainQuotaAccountId =
      (truthy identity).or manager.mainQuotaAccountId := by
  unfold QuotaManager.setMain
  simp only [Bool.not_true, Bool.false_and, Bool.false_eq_true, if_false]
  split <;> rfl

theorem accountId_setFallback (fp : String → String) (access : Option String) :
    ((manager.setFallback fp id entry access true identity).fallbacks.get id).bind (·.accountId) =
      identity.or ((manager.fallbacks.get id).bind (·.accountId)) := by
  unfold QuotaManager.setFallback
  simp only [Bool.not_true, Bool.false_and, Bool.false_eq_true, if_false]
  split <;> simp [QuotaManager.clearRateLimited, Js.Table.get_set_self]

theorem right_setMain (bound : Bound identity manager.mainQuotaAccountId token.account) :
    (Effect.setMain manager token entry identity).Right deps := by
  intro label mem
  rw [mainQuotaAccountId_setMain] at mem
  rcases known : truthy identity with _ | id
  · rw [known, Option.none_or] at mem
    exact bound.unknown known label mem
  · rw [known, Option.some_or, ← known, truthy_truthy] at mem
    exact bound.own label mem

/-- The identity of a row is that of its token's account wherever it has one. -/
theorem right_setFallback {row : OAuthAccount} {access : String}
    (unnamed : row.accountId = none →
      ∀ label ∈ truthy ((manager.fallbacks.get id).bind (·.accountId)), label = row.account) :
    (Effect.setFallback manager id entry ⟨access, row.account⟩ row.accountId).Right deps := by
  intro label mem
  rw [accountId_setFallback] at mem
  rcases known : row.accountId with _ | identity
  · rw [known, Option.none_or] at mem
    exact unnamed known label mem
  · rw [known, Option.some_or, ← known] at mem
    exact row.named label mem

end Stores

/-! ## One poll -/

section Polls

variable {deps : RefreshAllQuotaDeps} {options : RefreshAllQuotaOptions} {world : Moment → World}

theorem right_skipped {readings : List Reading} {now : ℚ} {identity signedIn : Option String}
    (same : ∀ reading ∈ readings, differentIdentity identity reading.label = false)
    (told : ∀ reading ∈ readings, isFresh deps now reading.checkedAt = true →
      reading.Told identity signedIn) :
    (Effect.skipped (readings.filter fun reading => isFresh deps now reading.checkedAt)
      signedIn).Right deps := by
  intro reading mem
  obtain ⟨here, fresh⟩ := List.mem_filter.mp mem
  exact (told reading here fresh).right (same reading here)

theorem pollSlot_right {auth : Auth}
    (judged : ∀ reading ∈ mainReadings (sharedSidebarState deps world) (world .auth)
        (liveMainAccountId deps world),
      isFresh deps (world .auth).now reading.checkedAt = true →
      reading.Told (liveMainAccountId deps world) (some auth.account))
    (stored : ∀ token, slotToken world auth = .ok (some token) →
      Bound (liveMainAccountId deps world) (world .usage).manager.mainQuotaAccountId token.account)
    {polled : Polled} (done : pollSlot deps world auth = .ok polled) :
    ∀ effect ∈ polled.effects, effect.Right deps := by
  unfold pollSlot at done
  simp only at done
  split at done
  · cases done
    intro effect mem
    rw [List.mem_singleton.mp mem]
    exact right_skipped (fun reading => same_of_mem_mainReadings) judged
  rcases asked : slotToken world auth with error | token
  · rw [asked] at done
    cases done
  rw [asked] at done
  simp only [Except.bind, bind] at done
  split at done
  · cases done
    exact List.forall_mem_nil _
  rename_i token usable
  split at done
  · cases done
    exact List.forall_mem_nil _
  split at done
  · cases done
  cases done
  intro effect mem
  rw [List.mem_singleton.mp mem]
  -- the token that is sent is the one in hand
  have inHand := (Option.filter_eq_some_iff.mp usable).1
  subst inHand
  exact right_setMain (stored token asked)

theorem pollMain_right (steady : Steady deps options world) (polls : pollsMain options = true) :
    ∀ effect ∈ (pollMain deps options world).effects, effect.Right deps := by
  unfold pollMain
  simp only
  rcases given : (world .auth).auth with error | auth
  · exact List.forall_mem_nil _
  simp only [bind, Except.bind]
  by_cases placeholder : isPoolMainPlaceholder auth = true
  · rw [if_pos placeholder]
    split_ifs <;> exact List.forall_mem_nil _
  rw [if_neg placeholder]
  have live : isPoolMainPlaceholder auth = false := Bool.eq_false_iff.mpr placeholder
  split_ifs
  · rcases done : pollSlot deps world auth with error | polled
    · exact List.forall_mem_nil _
    · exact pollSlot_right (steady.slotJudged auth given polls live)
        (steady.slotStored auth given polls live) done
  · exact List.forall_mem_nil _

section Row

variable {storage : AccountStorage} {n : ℕ} {row : OAuthAccount}

theorem same_of_mem_rowReadings {reading : Reading}
    (mem : reading ∈ rowReadings deps options world n row) :
    differentIdentity (rowIdentity deps options world n row) reading.label = false := by
  unfold rowReadings at mem
  split at mem
  · exact same_of_mem_mainReadings mem
  · rename_i fallback
    rw [show rowIdentity deps options world n row = row.accountId by
      unfold rowIdentity; rw [if_neg fallback]]
    exact same_of_mem_fallbackReadings mem

theorem rowGate_right
    (judged : ∀ reading ∈ rowReadings deps options world n row,
      isFresh deps (world (.row n .judged)).now reading.checkedAt = true →
      reading.Told (rowIdentity deps options world n row) (signedIn (world (.row n .judged)) row.id))
    {polled : Polled} (done : rowGate deps options world n row = some polled) :
    ∀ effect ∈ polled.effects, effect.Right deps := by
  unfold rowGate at done
  simp only at done
  split at done
  · cases done
    intro effect mem
    rw [List.mem_singleton.mp mem]
    exact right_skipped (fun reading => same_of_mem_rowReadings) judged
  split at done
  · cases done
    exact List.forall_mem_nil _
  split at done
  · cases done
    exact List.forall_mem_nil _
  split at done
  · cases done
    exact List.forall_mem_nil _
  · cases done

/-- What a row's reading is stored as, by the row whose token obtained it. -/
theorem storeReading_right {now : World} {quota : AccountQuota} {refreshed : OAuthAccount}
    {access : String}
    (asPoolMain : asMain options world n = true →
      Bound (rowIdentity deps options world n row) now.manager.mainQuotaAccountId refreshed.account)
    (asFallback : asMain options world n = false → refreshed.accountId = none →
      ∀ label ∈ truthy ((now.manager.fallbacks.get row.id).bind (·.accountId)),
        label = refreshed.account) :
    (storeReading deps options world n row now quota ⟨access, refreshed.account⟩
      refreshed.accountId).Right deps := by
  unfold storeReading
  by_cases main : asMain options world n = true
  · rw [if_pos main]
    exact right_setMain (asPoolMain main)
  · rw [if_neg main]
    exact right_setFallback (asFallback (Bool.eq_false_iff.mpr main))

theorem askUsage_right
    (asPoolMain : asMain options world n = true → ∀ asked ∈ askedWith deps options world n row,
      Bound (rowIdentity deps options world n row) asked.2.manager.mainQuotaAccountId
        asked.1.account)
    (asFallback : asMain options world n = false → ∀ asked ∈ askedWith deps options world n row,
      asked.1.accountId = none →
      ∀ label ∈ truthy ((asked.2.manager.fallbacks.get row.id).bind (·.accountId)),
        label = asked.1.account)
    {polled : Polled} (done : askUsage deps options world n row = .ok polled) :
    ∀ effect ∈ polled.effects, effect.Right deps := by
  unfold askUsage at done
  simp only at done
  split at done
  · cases done
    exact List.forall_mem_nil _
  split at done
  · cases done
    exact List.forall_mem_nil _
  split at done
  · -- the first request is answered
    rename_i quota answered
    cases done
    intro effect mem
    rw [List.mem_singleton.mp mem]
    have asked : (refreshedRow deps options world n row, world (.row n .usage)) ∈
        askedWith deps options world n row := by
      unfold askedWith
      rw [answered]
      rfl
    exact storeReading_right (fun main => asPoolMain main _ asked)
      (fun fallback => asFallback fallback _ asked)
  rename_i error rejected
  split at done
  · cases done
  rename_i unauthorized
  rw [not_not] at unauthorized
  split at done
  · cases done
  rename_i refreshed forced
  split at done
  · cases done
    exact List.forall_mem_nil _
  split at done
  · cases done
  -- the request after the forced refresh is
  cases done
  intro effect mem
  rw [List.mem_singleton.mp mem]
  have asked : (refreshed, world (.row n .again)) ∈ askedWith deps options world n row := by
    unfold askedWith
    rw [rejected]
    simp only [unauthorized, if_true, forced]
    rfl
  exact storeReading_right (fun main => asPoolMain main _ asked)
    (fun fallback => asFallback fallback _ asked)

theorem pollOAuth_right (steady : Steady deps options world)
    (loaded : loadedStorage world = some storage)
    (attempted : Attempted options world storage n row) :
    ∀ effect ∈ (pollOAuth deps options world n row).effects, effect.Right deps := by
  unfold pollOAuth
  rcases gated : rowGate deps options world n row with _ | polled
  · rcases asked : askUsage deps options world n row with error | polled
    · exact List.forall_mem_nil _
    · exact askUsage_right (steady.mainRowStored storage loaded n row attempted)
        (steady.rowStored storage loaded n row attempted) asked
  · exact rowGate_right (steady.rowJudged storage loaded n row attempted) gated

end Row

theorem refused_effects (id error : String) : (refused options id error).effects = [] := by
  unfold refused
  split_ifs <;> rfl

theorem pollRow_right (steady : Steady deps options world) {storage : AccountStorage}
    (loaded : loadedStorage world = some storage) {n : ℕ} {account : FallbackAccount}
    (here : storage.accounts[n]? = some account) :
    ∀ effect ∈ (pollRow deps options world storage n account).effects, effect.Right deps := by
  unfold pollRow
  by_cases passed : isPassedOver options world n account.id = true
  · rw [if_pos passed]
    exact List.forall_mem_nil _
  rw [if_neg passed]
  cases account with
  | other id enabled =>
      simp only [refused_effects]
      exact List.forall_mem_nil _
  | oauth row =>
      simp only
      split_ifs with shielded disabled
      · rw [refused_effects]
        exact List.forall_mem_nil _
      · rw [refused_effects]
        exact List.forall_mem_nil _
      · refine pollOAuth_right steady loaded ⟨here, Bool.eq_false_iff.mpr passed, ?_, disabled⟩
        intro fallback
        rw [fallback] at shielded
        simpa using shielded

theorem polls_right (steady : Steady deps options world) :
    ∀ polled ∈ polls deps options world, ∀ effect ∈ polled.effects, effect.Right deps := by
  intro polled mem
  unfold polls at mem
  rcases List.mem_append.mp mem with main | rows
  · split_ifs at main with polls
    · rw [List.mem_singleton.mp main]
      exact pollMain_right steady polls
    · cases main
  · unfold pollRows at rows
    rcases loaded : loadedStorage world with _ | storage
    · rw [loaded] at rows
      cases rows
    rw [loaded] at rows
    obtain ⟨n, bound, rfl⟩ := List.mem_mapIdx.mp rows
    exact pollRow_right steady loaded (List.getElem?_eq_getElem bound)

end Polls

/-! ## Results -/

section Results

variable {deps : RefreshAllQuotaDeps} {options : RefreshAllQuotaOptions} {world : Moment → World}

/-- A pass that ends gives its results. -/
theorem returned_eq {given : List RefreshAllQuotaResult}
    (returned : (refreshAllQuota deps options world).returned = .ok given) :
    given = results deps options world := by
  unfold refreshAllQuota at returned
  split_ifs at returned
  simp only [bind, Except.bind] at returned
  repeat' split at returned
  all_goals first | cases returned; rfl | cases returned

/-- The main row is the row `main`. -/
theorem findPoolMainRow_id {storage : AccountStorage} {n : ℕ}
    (found : findPoolMainRow (some storage) = some n) :
    ∃ row : OAuthAccount, storage.accounts[n]? = some (.oauth row) ∧ row.id = poolMainRowId ∧
      row.enabled ≠ some false := by
  unfold findPoolMainRow at found
  obtain ⟨bound, here, _⟩ := List.findIdx?_eq_some_iff_getElem.mp found
  simp only [Bool.and_eq_true, decide_eq_true_eq] at here
  rcases account : storage.accounts[n] with row | ⟨id, enabled⟩
  · rw [account] at here
    exact ⟨row, by rw [List.getElem?_eq_getElem bound, account], here.1.1, here.1.2⟩
  · rw [account] at here
    exact absurd here.2 (by simp [FallbackAccount.oauth?])

/-- The poll leaves a result for this account. -/
def Polled.Names (polled : Polled) (account : String) : Prop :=
  ∃ result, polled.result = some result ∧ result.account = account

theorem names_succeeded (account : String) (effects : List Effect) :
    (succeeded account effects).Names account := ⟨_, rfl, rfl⟩

theorem names_failed (account error : String) : (failed account error).Names account :=
  ⟨_, rfl, rfl⟩

variable {n : ℕ} {row : OAuthAccount}

theorem rowGate_names {polled : Polled} (done : rowGate deps options world n row = some polled) :
    polled.Names row.id := by
  unfold rowGate at done
  simp only at done
  split at done
  · cases done
    exact names_succeeded row.id _
  split at done
  · cases done
    exact names_succeeded row.id _
  split at done
  · cases done
    exact ⟨_, rfl, rfl⟩
  split at done
  · cases done
    exact names_failed row.id _
  · cases done

theorem askUsage_names {polled : Polled} (done : askUsage deps options world n row = .ok polled) :
    polled.Names row.id := by
  unfold askUsage at done
  simp only at done
  split at done
  · cases done
    exact names_failed row.id _
  split at done
  · cases done
    exact names_failed row.id _
  split at done
  · cases done
    exact names_succeeded row.id _
  split at done
  · cases done
  split at done
  · cases done
  split at done
  · cases done
    exact names_failed row.id _
  split at done
  · cases done
  · cases done
    exact names_succeeded row.id _

theorem pollOAuth_names : (pollOAuth deps options world n row).Names row.id := by
  unfold pollOAuth
  rcases gated : rowGate deps options world n row with _ | polled
  · rcases asked : askUsage deps options world n row with error | polled
    · exact names_failed row.id _
    · exact askUsage_names asked
  · exact rowGate_names gated

theorem pollSlot_names {auth : Auth} {polled : Polled}
    (done : pollSlot deps world auth = .ok polled) : polled.Names "main" := by
  unfold pollSlot at done
  simp only at done
  split at done
  · cases done
    exact names_succeeded "main" _
  rcases asked : slotToken world auth with error | token
  · rw [asked] at done
    cases done
  rw [asked] at done
  simp only [Except.bind, bind] at done
  split at done
  · cases done
    exact names_failed "main" _
  split at done
  · cases done
    exact names_succeeded "main" _
  split at done
  · cases done
  · cases done
    exact names_succeeded "main" _

/-- Where the main slot leaves no result, its poll is left to the row `main`. -/
theorem pollMain_names (deps : RefreshAllQuotaDeps) (world : Moment → World)
    (polls : pollsMain options = true) :
    (pollMain deps options world).Names "main" ∨
      ∃ n, poolMainRow options world = some n ∧
        findPoolMainRow (loadedStorage world) = some n := by
  unfold pollMain
  simp only
  rcases given : (world .auth).auth with error | auth
  · exact .inl (names_failed "main" _)
  simp only [bind, Except.bind]
  by_cases placeholder : isPoolMainPlaceholder auth = true
  · rw [if_pos placeholder]
    rcases found : poolMainRow options world with _ | n
    · refine .inl ?_
      simp only [Option.isSome_none, Bool.false_eq_true, if_false]
      split_ifs <;> exact names_failed "main" _
    · refine .inr ⟨n, rfl, ?_⟩
      unfold poolMainRow at found
      rw [if_pos polls, given] at found
      simpa [Except.toOption, placeholder] using found
  rw [if_neg placeholder]
  refine .inl ?_
  split_ifs
  · rcases done : pollSlot deps world auth with error | polled
    · exact names_failed "main" _
    · exact pollSlot_names done
  · exact names_failed "main" _

/-- The row that serves as the main account is always polled. -/
theorem pollRow_poolMain {storage : AccountStorage} (main : poolMainRow options world = some n)
    (main_id : row.id = poolMainRowId) (enabled : row.enabled ≠ some false) :
    (pollRow deps options world storage n (.oauth row)).Names "main" := by
  have here : asMain options world n = true := by
    unfold asMain
    rw [main]
    exact decide_eq_true rfl
  unfold pollRow isPassedOver
  rw [here]
  simp only [Bool.not_true, Bool.false_and, Bool.false_eq_true, if_false, if_neg enabled]
  have named : (pollOAuth deps options world n row).Names row.id := pollOAuth_names
  rw [main_id] at named
  exact named

theorem polls_main (deps : RefreshAllQuotaDeps) (world : Moment → World)
    (polls_main : pollsMain options = true) :
    ∃ polled ∈ polls deps options world, polled.Names "main" := by
  unfold polls
  rw [if_pos polls_main]
  rcases pollMain_names deps world polls_main with named | ⟨n, main, found⟩
  · exact ⟨_, List.mem_append_left _ (List.mem_singleton.mpr rfl), named⟩
  rcases loaded : loadedStorage world with _ | storage
  · rw [loaded] at found
    cases found
  rw [loaded] at found
  obtain ⟨row, here, main_id, enabled⟩ := findPoolMainRow_id found
  obtain ⟨bound, here⟩ := List.getElem?_eq_some_iff.mp here
  have polled : pollRow deps options world storage n (.oauth row) ∈ pollRows deps options world := by
    unfold pollRows
    rw [loaded]
    exact List.mem_mapIdx.mpr ⟨n, bound, by rw [here]⟩
  exact ⟨_, List.mem_append_right _ polled, pollRow_poolMain main main_id enabled⟩

/-- An account that is asked for has a result. -/
theorem results_names {key : String} (asked : options.accountKey = some key) (given : key ≠ "") :
    ∃ result ∈ results deps options world, result.account = key := by
  have known : truthy options.accountKey = some key := by
    rw [asked]
    simp [truthy, given]
  unfold results
  rw [known]
  by_cases main : key = poolMainRowId
  · subst main
    have polls : pollsMain options = true := by
      unfold pollsMain
      rw [known]
      rfl
    obtain ⟨polled, mem, result, left, names⟩ := polls_main deps world polls
    simp only [Option.filter_some, ne_eq, not_true_eq_false, decide_false, Bool.false_eq_true,
      if_false]
    exact ⟨result, List.mem_filterMap.mpr ⟨polled, mem, left⟩, names⟩
  · simp only [Option.filter_some, ne_eq, main, not_false_eq_true, decide_true, if_true]
    split_ifs with found
    · obtain ⟨result, mem, names⟩ := List.any_eq_true.mp found
      exact ⟨result, mem, of_decide_eq_true names⟩
    · exact ⟨_, List.mem_append_right _ (List.mem_singleton.mpr rfl), rfl⟩

end Results

/-! ## A pass -/

section Pass

variable {deps : RefreshAllQuotaDeps} {options : RefreshAllQuotaOptions} {world : Moment → World}

theorem effects_right (steady : Steady deps options world) :
    ∀ effect ∈ (refreshAllQuota deps options world).effects, effect.Right deps := by
  unfold refreshAllQuota
  split_ifs
  · exact List.forall_mem_nil _
  · intro effect mem
    obtain ⟨polled, here, mem⟩ := List.mem_flatMap.mp mem
    exact polls_right steady polled here effect mem

def loginOf (account : String) : Auth where
  type := "oauth"
  access := some "access"
  expires := some 5000
  account := account

/-- One host whose main slot, storage and readings are all of `account`. -/
def signedInAs (account : String) : World where
  now := 1000
  storage := .ok (some { mainAccountId := some account })
  sidebar := .ok { mainAccountId := some account }
  auth := .ok (loginOf account)
  lease := .error { message := "no refresh" }
  usage := .ok {}
  written := .ok ()
  manager := {}
  mainOf := account
  fallbackOf := fun _ => account
  refreshPromises := fun _ => none
  fileLock := true
  provider := .error { message := "no refresh" }
  saved := .ok ()

def plainDeps : RefreshAllQuotaDeps where
  skipFresherThanMs := some 60000
  isTombstoneRefresh := fun refresh => refresh = hostSlotTombstoneRefresh
  hashRefreshToken := fun refresh => refresh
  tokenFingerprint := fun token => token

/-- The storage is loaded, then another account signs in at the main slot. -/
def reloggedIn : Moment → World
  | .sidebar | .storage => signedInAs "first"
  | _ => signedInAs "second"

theorem effects_reloggedIn : (refreshAllQuota plainDeps {} reloggedIn).effects =
    [.setMain {} ⟨"access", "second"⟩ (newEntry (signedInAs "second") {}) (some "first")] := by
  have unread : mainReadings (sharedSidebarState plainDeps reloggedIn) (reloggedIn .auth)
      (liveMainAccountId plainDeps reloggedIn) = [] := by decide
  have inHand : slotToken reloggedIn (loginOf "second") = .ok (some ⟨"access", "second"⟩) := by
    have held : truthy (loginOf "second").access = some "access" := by decide
    have unexpired : ¬(loginOf "second").expires.getD 0 < (reloggedIn .auth).now := by decide
    unfold slotToken
    rw [held]
    simp only [if_neg unexpired]
    rfl
  have slot : pollSlot plainDeps reloggedIn (loginOf "second") = .ok (succeeded "main"
      [.setMain {} ⟨"access", "second"⟩ (newEntry (signedInAs "second") {}) (some "first")]) := by
    unfold pollSlot
    simp only [unread, inHand]
    rfl
  have main : pollMain plainDeps {} reloggedIn = succeeded "main"
      [.setMain {} ⟨"access", "second"⟩ (newEntry (signedInAs "second") {}) (some "first")] := by
    have login : (reloggedIn .auth).auth = .ok (loginOf "second") := rfl
    have live : isPoolMainPlaceholder (loginOf "second") = false := by decide
    have oauth : (loginOf "second").type = "oauth" := rfl
    unfold pollMain
    rw [login]
    simp only [bind, Except.bind, live, oauth, slot, Bool.false_eq_true, if_false, if_true]
  have rows : pollRows plainDeps {} reloggedIn = [] := rfl
  have main_polled : pollsMain {} = true := rfl
  unfold refreshAllQuota polls
  rw [main, rows, if_pos main_polled]
  rfl

end Pass

end RefreshAllQuota
