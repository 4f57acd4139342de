import OpenaiAuth.Request.LegacySends

/-! # Which accounts a legacy request spends on

With the killswitch on, an account is chosen only after a reading of its quota
has passed. What a request has read so far is a function of its answers
(`readings`), so the floor is a condition on each send and what came before it.
The exception is a session's own pin: a pin whose reading is missing or old is
kept without a judgement.

Main results: `legacy_killswitch`, and `legacy_killswitch_fails` for a pin below
its floor that is sent.
-/

namespace Request.Legacy

open Interleave Sidebar Sidebar.Overlay Sidebar.Placement

variable (dateParse : String → Option ℚ) (r : RequestContext)

/-! ## What a request has read -/

/-- A roster as it was handed out. Its rows are judged `later`, by the clock of
then or of `before`. -/
structure Listing where
  before : Moment
  usable : Usable r.rows.length
  later : Moment

/-- The moments a request has seen, and its latest roster. -/
structure Readings where
  latest : Moment
  listed : Option (Listing r)
  seen : List Moment

variable {r}

/-- The request goes on at `later`. -/
def Readings.move (k : Readings r) (later : Moment) : Readings r :=
  { k with latest := later, seen := k.seen ++ [later] }

/-- The request is handed a roster. -/
def Readings.list (k : Readings r) (usable : Usable r.rows.length) (later : Moment) :
    Readings r where
  latest := later
  listed := some ⟨k.latest, usable, later⟩
  seen := k.seen ++ [later]

def note (k : Readings r) : Exchange (sig r.rows.length) → Readings r
  | ⟨.getUsableFallbackAccounts, answer⟩ => k.list answer.1 answer.2
  | ⟨.sendWithAccessToken _ _, answer⟩ => k.move answer.2
  | ⟨.cancel _, _⟩ => k
  | ⟨.poolPlaceholderWithoutMain, _⟩ => k

/-- What a request that started at `m` has read after `past`. -/
def readings (m : Moment) (past : Past r) : Readings r :=
  past.foldl note { latest := m, listed := none, seen := [m] }

theorem readings_concat (m : Moment) (past : Past r) (x : Exchange (sig r.rows.length)) :
    readings m (past ++ [x]) = note (readings m past) x := by
  simp [readings]

/-! ## The floor -/

/-- The request read a quota of the account that passes the killswitch: of main
when it judged main, of a row when it listed the rows. -/
inductive Passed (k : Readings r) : r.Account → Prop where
  | main {m : Moment} (hm : m ∈ k.seen)
      (h : mainPasses dateParse r.reqStorage r.mainAccountIdentity m.now m = true) : Passed k .main
  | row {l : Listing r} {offer : Offer r.rows.length} {now : ℚ} (hlisted : k.listed = some l)
      (hoffer : offer ∈ l.usable.offers) (hnow : now = l.before.now ∨ now = l.later.now)
      (h : fallbackPasses dateParse r.reqStorage (r.rows.get offer.row).id offer.accountId now
        l.later = true) : Passed k (.row offer.row)

/-- The account the session is pinned to, as the request sees it. -/
def pinnedId (k : Readings r) : Option String :=
  r.stickySession.bind fun sessionHash =>
    ((applyStickyPinOverlay r.sidebarSnapshot k.latest.overlay).1.pin sessionHash).map (·.accountId)

/-- The freshest reading of the account is there and not old. -/
inductive Fresh (k : Readings r) : r.Account → Prop where
  | main (h : readingIsFresh (freshestReading r "main" r.mainAccountIdentity k.latest).quota
      (freshestReading r "main" r.mainAccountIdentity k.latest).quotaCheckedAt k.latest.now = true) :
      Fresh k .main
  | row {l : Listing r} {offer : Offer r.rows.length} (hlisted : k.listed = some l)
      (hoffer : offer ∈ l.usable.offers)
      (h : readingIsFresh
        (freshestReading r (r.rows.get offer.row).id offer.accountId k.latest).quota
        (freshestReading r (r.rows.get offer.row).id offer.accountId k.latest).quotaCheckedAt
        k.latest.now = true) : Fresh k (.row offer.row)

/-- The account passed when the roster was made, has a token and no rate-limit
mark. -/
inductive CanTake (k : Readings r) : r.Account → Prop where
  | main {l : Listing r} (hlisted : k.listed = some l) (havailable : r.mainUnavailable = false)
      (hpasses : mainPasses dateParse r.reqStorage r.mainAccountIdentity l.before.now l.before =
        true)
      (hfree : k.latest.quotas.isRateLimited k.latest.now "main" = false) : CanTake k .main
  | row {l : Listing r} {offer : Offer r.rows.length} (hlisted : k.listed = some l)
      (hoffer : offer ∈ l.usable.offers) (haccess : offer.access.isSome = true)
      (hpasses : fallbackPasses dateParse r.reqStorage (r.rows.get offer.row).id offer.accountId
        l.before.now l.later = true)
      (hfree : k.latest.quotas.isRateLimited k.latest.now (r.rows.get offer.row).id = false) :
      CanTake k (.row offer.row)

/-- The account is the session's pin, and where it is the first to be sent to
its reading is missing or old, or no other account can take the session. -/
structure Kept (k : Readings r) (first : Prop) (account : r.Account) : Prop where
  pinned : pinnedId k = some (r.accountId account)
  reason : first → Fresh k account →
    ¬ ∃ other, CanTake dateParse k other ∧ r.accountId other ≠ r.accountId account

/-- Why an account may be sent to. -/
inductive Grounds (k : Readings r) (first : Prop) (account : r.Account) : Prop where
  | passed {other : r.Account} (hid : r.accountId other = r.accountId account)
      (h : Passed dateParse k other)
  | kept (h : Kept dateParse k first account)

variable {dateParse}

theorem Passed.mono {k k' : Readings r} {account : r.Account} (h : Passed dateParse k account)
    (hlisted : k'.listed = k.listed) (hseen : ∀ m ∈ k.seen, m ∈ k'.seen) :
    Passed dateParse k' account := by
  cases h with
  | main hm hpasses => exact .main (hseen _ hm) hpasses
  | row hl hoffer hnow hpasses => exact .row (hlisted.trans hl) hoffer hnow hpasses

/-- The rows' storage has the request's killswitch. -/
theorem killswitch_fallbackStorage (quota : Option AccountQuota) (accountId : Option String)
    (now : ℚ) : killswitchPassesPolicy dateParse quota r.fallbackStorage accountId now =
      killswitchPassesPolicy dateParse quota r.reqStorage accountId now := by
  unfold RequestContext.fallbackStorage
  split
  · cases r.reqStorage <;> rfl
  · rfl

theorem isKillswitchEnabled_fallbackStorage :
    isKillswitchEnabled r.fallbackStorage = isKillswitchEnabled r.reqStorage := by
  unfold RequestContext.fallbackStorage
  split
  · cases r.reqStorage <;> rfl
  · rfl

/-! ## Candidates -/

section Candidates

variable {before later : Moment} {usable : Usable r.rows.length}
  {c : StickyRouteCandidate r} {k : Readings r}

theorem mainCandidate_passes (hks : isKillswitchEnabled r.reqStorage = true) :
    (mainCandidate dateParse r before).killswitchPasses =
      some (mainPasses dateParse r.reqStorage r.mainAccountIdentity before.now before) := by
  simp only [mainCandidate, isKillswitchEnabled_fallbackStorage, hks, if_true, mainPasses,
    killswitch_fallbackStorage]

theorem fallbackCandidate_passes (hks : isKillswitchEnabled r.reqStorage = true) {now : ℚ}
    {order : Nat} {offer : Offer r.rows.length} {access : String} :
    (fallbackCandidate dateParse r now later order offer access).killswitchPasses =
      some (fallbackPasses dateParse r.reqStorage (r.rows.get offer.row).id offer.accountId now
        later) := by
  simp only [fallbackCandidate, isKillswitchEnabled_fallbackStorage, hks, if_true, fallbackPasses,
    killswitch_fallbackStorage]

/-- A candidate the killswitch lets pass has passed. -/
theorem RosterCandidate.passed (h : RosterCandidate dateParse r before later usable.offers c)
    (hks : isKillswitchEnabled r.reqStorage = true) (hpasses : c.killswitchPasses ≠ some false)
    (hlisted : k.listed = some ⟨before, usable, later⟩) (hbefore : before ∈ k.seen) :
    Passed dateParse k c.account := by
  cases h with
  | main =>
      refine .main hbefore ?_
      rw [mainCandidate_passes hks] at hpasses
      simpa using hpasses
  | row order hoffer =>
      refine .row hlisted hoffer (.inl rfl) ?_
      rw [fallbackCandidate_passes hks] at hpasses
      exact (Bool.not_eq_false _).mp fun hfalse => hpasses (congrArg some hfalse)

/-- Pushing keeps what is in the roster. -/
theorem mem_pushFallbacks_of_mem {now : ℚ} {offers : List (Offer r.rows.length)}
    {roster : List (StickyRouteCandidate r)} (hc : c ∈ roster) :
    c ∈ pushFallbacks dateParse r now later offers roster := by
  induction offers generalizing roster with
  | nil => exact hc
  | cons offer offers ih =>
      rw [pushFallbacks]
      split
      · exact ih hc
      · exact ih (List.mem_append_left _ hc)

/-- Every offer with a token is pushed at its place. -/
theorem fallbackCandidate_pushed {now : ℚ} {offer : Offer r.rows.length} {access : String}
    (haccess : offer.access = some access) {offers : List (Offer r.rows.length)}
    (hoffer : offer ∈ offers) (roster : List (StickyRouteCandidate r)) :
    ∃ order, fallbackCandidate dateParse r now later order offer access ∈
      pushFallbacks dateParse r now later offers roster := by
  induction offers generalizing roster with
  | nil => exact absurd hoffer List.not_mem_nil
  | cons head offers ih =>
      rw [pushFallbacks]
      rcases List.mem_cons.mp hoffer with rfl | hrest
      · rw [haccess]
        exact ⟨roster.length, mem_pushFallbacks_of_mem
          (List.mem_append_right _ (List.mem_singleton_self _))⟩
      · split
        · exact ih hrest _
        · exact ih hrest _

/-- An account that can take the session is a candidate that passes. -/
theorem CanTake.candidate {account : r.Account} (h : CanTake dateParse k account)
    (hks : isKillswitchEnabled r.reqStorage = true)
    (hlisted : k.listed = some ⟨before, usable, later⟩) :
    ∃ c ∈ pushFallbacks dateParse r before.now later usable.offers
        (if r.mainUnavailable then [] else [mainCandidate dateParse r before]),
      c.accountId = r.accountId account ∧ c.killswitchPasses = some true ∧
        isStickyRouteCandidateRateLimited r c k.latest = false := by
  cases h with
  | main hl havailable hpasses hfree =>
      rw [hlisted, Option.some.injEq] at hl
      subst hl
      refine ⟨mainCandidate dateParse r before, ?_, rfl, ?_, hfree⟩
      · rw [havailable]
        exact mem_pushFallbacks_of_mem (List.mem_singleton_self _)
      · rw [mainCandidate_passes hks]
        exact congrArg some hpasses
  | row hl hoffer haccess hpasses hfree =>
      rw [hlisted, Option.some.injEq] at hl
      subst hl
      obtain ⟨access, haccess⟩ := Option.isSome_iff_exists.mp haccess
      obtain ⟨order, hmem⟩ := fallbackCandidate_pushed haccess hoffer
        (if r.mainUnavailable then [] else [mainCandidate dateParse r before])
      refine ⟨_, hmem, rfl, ?_, hfree⟩
      rw [fallbackCandidate_passes hks]
      exact congrArg some hpasses

/-- The reading a candidate is judged by when it is about to be left. -/
theorem RosterCandidate.fresh (h : RosterCandidate dateParse r before later usable.offers c)
    (hlisted : k.listed = some ⟨before, usable, later⟩) (hfresh : Fresh k c.account) :
    readingIsFresh (freshestReading r c.accountId c.wireAccountId k.latest).quota
      (freshestReading r c.accountId c.wireAccountId k.latest).quotaCheckedAt k.latest.now =
        true := by
  cases h with
  | main =>
      cases hfresh with
      | main h => exact h
  | row order hoffer =>
      rename_i offer access
      -- the row is offered once, so it is this offer that was read
      generalize haccount : (fallbackCandidate dateParse r before.now later order offer
        access).account = account at hfresh
      cases hfresh with
      | main h => cases haccount
      | row hl hother h =>
          rename_i l other
          rw [hlisted, Option.some.injEq] at hl
          subst hl
          have hrow : offer.row = other.row := by simpa [fallbackCandidate] using haccount
          have hsame : offer = other := List.inj_on_of_nodup_map usable.once hoffer hother hrow
          subst hsame
          exact h

end Candidates

/-! ## One call -/

section Walk

variable {m₀ : Moment}

/-- A send needs grounds. -/
def Floor (dateParse : String → Option ℚ) (m₀ : Moment) (past : Past r)
    (o : (sig r.rows.length).Call) : Prop :=
  ∀ account, r.dispatch.target o = some account →
    Grounds dateParse (readings m₀ past) (r.dispatch.sent past = []) account

/-- Every send has grounds, what is returned meets `Q`, and a request that sent
nothing throws only for want of a login. -/
abbrev Judged (dateParse : String → Option ℚ) (m₀ : Moment) {α : Type} (past : Past r)
    (p : RequestM r α) (Q : α → Past r → Prop) : Prop :=
  (Learning.history (sig r.rows.length)).Ends (Floor dateParse m₀) past p Q
    fun error later => r.dispatch.sent later = [] → error = .loginRequired

/-- What was listed stays, and no moment is forgotten. -/
structure Grows (k k' : Readings r) : Prop where
  listed : k'.listed = k.listed
  seen : ∀ m ∈ k.seen, m ∈ k'.seen

theorem Grows.refl (k : Readings r) : Grows k k where
  listed := rfl
  seen _ hm := hm

theorem Grows.trans {k k' k'' : Readings r} (h : Grows k k') (h' : Grows k' k'') : Grows k k'' where
  listed := h'.listed.trans h.listed
  seen m hm := h'.seen m (h.seen m hm)

theorem Grows.move (k : Readings r) (later : Moment) : Grows k (k.move later) where
  listed := rfl
  seen _ hm := List.mem_append_left _ hm

theorem Passed.grows {k k' : Readings r} {account : r.Account} (h : Passed dateParse k account)
    (hgrows : Grows k k') : Passed dateParse k' account :=
  h.mono hgrows.listed hgrows.seen

theorem floor_of_no_target {past : Past r} {o : (sig r.rows.length).Call}
    (h : r.dispatch.target o = none) : Floor dateParse m₀ past o := by
  intro account haccount
  rw [h] at haccount
  cases haccount

theorem getUsable_judged {past : Past r} {Q : Usable r.rows.length × Moment → Past r → Prop}
    (h : ∀ usable later past', readings m₀ past' = (readings m₀ past).list usable later →
      r.dispatch.sent past' = r.dispatch.sent past → Q (usable, later) past') :
    Judged dateParse m₀ past (getUsableFallbackAccounts (n := r.rows.length)) Q := by
  refine Learning.ends_perform (floor_of_no_target rfl) ?_ ?_
  · rintro answer usable ⟨⟩
    exact h answer.1 answer.2 _ (readings_concat m₀ past _) (Dispatch.quiet_step rfl rfl).sent
  · rintro answer error ⟨⟩

theorem placeholder_judged {past : Past r} {Q : Bool → Past r → Prop}
    (h : ∀ missing past', readings m₀ past' = readings m₀ past →
      r.dispatch.sent past' = r.dispatch.sent past → Q missing past') :
    Judged dateParse m₀ past (poolPlaceholderWithoutMain (n := r.rows.length)) Q := by
  refine Learning.ends_perform (floor_of_no_target rfl) ?_ ?_
  · rintro answer missing ⟨⟩
    exact h answer _ (readings_concat m₀ past _) (Dispatch.quiet_step rfl rfl).sent
  · rintro answer error ⟨⟩

theorem cancel_judged {past : Past r} {response : Response} {Q : Unit → Past r → Prop}
    (h : ∀ past', readings m₀ past' = readings m₀ past →
      r.dispatch.sent past' = r.dispatch.sent past → Q () past') :
    Judged dateParse m₀ past (cancel (n := r.rows.length) response) Q := by
  refine Learning.ends_perform (floor_of_no_target rfl) ?_ ?_
  · rintro answer _ ⟨⟩
    exact h _ (readings_concat m₀ past _) (Dispatch.cancelled_step rfl rfl).sent
  · rintro answer error ⟨⟩

theorem sent_after_send (past : Past r) (account : r.Account) (access : String)
    (answer : Sent × Moment) :
    r.dispatch.sent (past ++ [⟨.sendWithAccessToken account access, answer⟩]) ≠ [] := by
  rw [Dispatch.sent_append]
  obtain ⟨answer, later⟩ := answer
  cases answer <;>
    simp [Dispatch.sent, RequestContext.dispatch, dispatch, Outcome.reached, Option.filter_some]

/-- A send with grounds; whatever comes back, something has been sent then. -/
theorem send_floor {past : Past r} {account : r.Account} {access : String}
    (hgrounds : Grounds dateParse (readings m₀ past) (r.dispatch.sent past = []) account)
    {Q : Except Failure (Response × Moment) → Past r → Prop}
    (h : ∀ result later past', readings m₀ past' = (readings m₀ past).move later →
      r.dispatch.sent past' ≠ [] → Q result past') :
    (Learning.history (sig r.rows.length)).Justified (Floor dateParse m₀) past
      (sendWithAccessToken account access).run Q := by
  refine ⟨?_, ?_⟩
  · intro other hother
    obtain rfl : account = other := by simpa [RequestContext.dispatch, dispatch] using hother
    exact hgrounds
  · rintro ⟨answer, later⟩
    exact h _ later _ (readings_concat m₀ past _) (sent_after_send past account access _)

theorem send_judged {past : Past r} {account : r.Account} {access : String}
    (hgrounds : Grounds dateParse (readings m₀ past) (r.dispatch.sent past = []) account)
    {Q : Response × Moment → Past r → Prop}
    (h : ∀ response later past', readings m₀ past' = (readings m₀ past).move later →
      r.dispatch.sent past' ≠ [] → Q (response, later) past') :
    Judged dateParse m₀ past (sendWithAccessToken account access) Q := by
  refine ⟨?_, ?_⟩
  · intro other hother
    obtain rfl : account = other := by simpa [RequestContext.dispatch, dispatch] using hother
    exact hgrounds
  · rintro ⟨answer, later⟩
    have hsent := sent_after_send past account access (answer, later)
    cases answer with
    | response stream status =>
        refine ⟨?_, ?_⟩
        · rintro result ⟨⟩
          exact h _ later _ (readings_concat m₀ past _) hsent
        · rintro error ⟨⟩
    | threw aborted =>
        refine ⟨?_, ?_⟩
        · rintro result ⟨⟩
        · intro error _ hnone
          exact absurd hnone hsent

/-! ## Fallbacks and main -/

/-- Every candidate has passed. -/
abbrev AllPassed (dateParse : String → Option ℚ) (k : Readings r)
    (candidates : List (FallbackCandidate r)) : Prop :=
  ∀ candidate ∈ candidates, Passed dateParse k (.row candidate.row)

theorem AllPassed.grows {k k' : Readings r} {candidates : List (FallbackCandidate r)}
    (h : AllPassed dateParse k candidates) (hgrows : Grows k k') :
    AllPassed dateParse k' candidates :=
  fun candidate hmem => (h candidate hmem).grows hgrows

theorem Grounds.of_passed {k : Readings r} {first : Prop} {account : r.Account}
    (h : Passed dateParse k account) : Grounds dateParse k first account :=
  .passed rfl h

/-- A request that sent nothing answers with the refusal, or main has passed. -/
def Answered (dateParse : String → Option ℚ) (m₀ : Moment) (response : Response) (past : Past r) :
    Prop :=
  r.dispatch.sent past = [] → response = killswitchBlockedResponse ∨
    Passed dateParse (readings m₀ past) .main

theorem tryFallbackFirst_judged {candidates : List (FallbackCandidate r)} {past : Past r}
    (hpassed : AllPassed dateParse (readings m₀ past) candidates) :
    Judged dateParse m₀ past (tryFallbackFirst r candidates) fun served later =>
      Grows (readings m₀ past) (readings m₀ later) ∧
        (served.isSome = true → r.dispatch.sent later ≠ []) := by
  induction candidates generalizing past with
  | nil => exact Learning.ends_pure ⟨Grows.refl _, fun hserved => by cases hserved⟩
  | cons candidate candidates ih =>
      rw [tryFallbackFirst]
      refine Learning.ends_bind (send_judged
        (Grounds.of_passed (hpassed candidate List.mem_cons_self)) ?_)
      intro response m later hreadings hsent
      have hgrows : Grows (readings m₀ past) (readings m₀ later) := by
        rw [hreadings]
        exact Grows.move _ m
      dsimp only
      split
      · refine Learning.ends_bind (cancel_judged ?_)
        intro last hsame hlast
        rw [← hsame] at hgrows
        have hrest : AllPassed dateParse (readings m₀ last) candidates :=
          AllPassed.grows (fun c hc => hpassed c (List.mem_cons_of_mem _ hc)) hgrows
        exact Learning.ends_mono (ih hrest) fun _ _ h => ⟨hgrows.trans h.1, h.2⟩
      · exact Learning.ends_pure ⟨hgrows, fun _ => hsent⟩

theorem retryFallbacks_judged {candidates : List (FallbackCandidate r)} {past : Past r}
    {lastResponse : Response} (hlast : Answered dateParse m₀ lastResponse past)
    (hpassed : AllPassed dateParse (readings m₀ past) candidates) :
    Judged dateParse m₀ past (retryFallbacks r candidates lastResponse)
      (Answered dateParse m₀) := by
  induction candidates generalizing past lastResponse with
  | nil => exact Learning.ends_pure hlast
  | cons candidate candidates ih =>
      rw [retryFallbacks]
      refine Learning.ends_bind (Learning.ends_attempt (send_floor
        (Grounds.of_passed (hpassed candidate List.mem_cons_self)) ?_))
      intro result m later hreadings hsent
      have hgrows : Grows (readings m₀ past) (readings m₀ later) := by
        rw [hreadings]
        exact Grows.move _ m
      rcases result with error | ⟨response, _⟩
      · cases error with
        | loginRequired => exact Learning.ends_throw fun _ => rfl
        | transport aborted =>
            cases aborted with
            | false => exact Learning.ends_pure fun hnone => absurd hnone hsent
            | true => exact Learning.ends_throw fun hnone => absurd hnone hsent
      · refine Learning.ends_bind (cancel_judged ?_)
        intro last hsame hlastSent
        rw [← hlastSent] at hsent
        rw [← hsame] at hgrows
        split
        · exact ih (fun hnone => absurd hnone hsent)
            (AllPassed.grows (fun c hc => hpassed c (List.mem_cons_of_mem _ hc)) hgrows)
        · exact Learning.ends_pure fun hnone => absurd hnone hsent

/-- Every candidate of a selection has passed. -/
structure SelectionPassed (dateParse : String → Option ℚ) (k : Readings r)
    (selection : FallbackCandidateSelection r) : Prop where
  current : AllPassed dateParse k selection.current
  retained : AllPassed dateParse k selection.retained

theorem SelectionPassed.grows {k k' : Readings r} {selection : FallbackCandidateSelection r}
    (h : SelectionPassed dateParse k selection) (hgrows : Grows k k') :
    SelectionPassed dateParse k' selection :=
  ⟨h.current.grows hgrows, h.retained.grows hgrows⟩

theorem SelectionPassed.admitted {k : Readings r} {selection : FallbackCandidateSelection r}
    (h : SelectionPassed dateParse k selection) (mainRemainsCandidate : Bool) :
    AllPassed dateParse k (applyAdmissionQuotaSafety r selection mainRemainsCandidate) := by
  unfold applyAdmissionQuotaSafety
  split
  · exact h.current
  · exact h.retained

theorem usableFallbackCandidates_judged (hks : isKillswitchEnabled r.reqStorage = true)
    {past : Past r} {Q : FallbackCandidateSelection r → Past r → Prop}
    (h : ∀ selection later, SelectionPassed dateParse (readings m₀ later) selection →
      (∀ m ∈ (readings m₀ past).seen, m ∈ (readings m₀ later).seen) →
      r.dispatch.sent later = r.dispatch.sent past → Q selection later) :
    Judged dateParse m₀ past (usableFallbackCandidates dateParse r) Q := by
  refine Learning.ends_bind (getUsable_judged ?_)
  intro usable m later hreadings hsent
  have hcurrent : AllPassed dateParse (readings m₀ later)
      (currentCandidates dateParse r (offered r usable.offers) m) := by
    intro candidate hcandidate
    simp only [currentCandidates, isKillswitchEnabled_fallbackStorage, hks, if_true] at hcandidate
    obtain ⟨hmem, hpasses⟩ := List.mem_filter.mp hcandidate
    obtain ⟨offer, hoffer, haccess⟩ := List.mem_filterMap.mp (List.mem_filter.mp hmem).1
    obtain ⟨access, -, rfl⟩ := Option.map_eq_some_iff.mp haccess
    rw [fallbackPasses, killswitch_fallbackStorage] at hpasses
    rw [hreadings]
    exact .row rfl hoffer (.inr rfl) hpasses
  refine Learning.ends_pure (h _ later ⟨hcurrent, fun c hc => ?_⟩ ?_ hsent)
  · exact hcurrent c (List.mem_filter.mp hc).1
  · intro m' hm'
    rw [hreadings]
    exact List.mem_append_left _ hm'

theorem requestFallbackSelection_judged (hks : isKillswitchEnabled r.reqStorage = true)
    {past : Past r} {made : Option (FallbackCandidateSelection r)}
    (hmade : ∀ selection, made = some selection →
      SelectionPassed dateParse (readings m₀ past) selection)
    {Q : FallbackCandidateSelection r → Past r → Prop}
    (h : ∀ selection later, SelectionPassed dateParse (readings m₀ later) selection →
      (∀ m ∈ (readings m₀ past).seen, m ∈ (readings m₀ later).seen) →
      r.dispatch.sent later = r.dispatch.sent past → Q selection later) :
    Judged dateParse m₀ past (requestFallbackSelection dateParse r made) Q := by
  cases made with
  | none => exact usableFallbackCandidates_judged hks h
  | some selection =>
      exact Learning.ends_pure (h selection past (hmade selection rfl) (fun _ hm => hm) rfl)

theorem quotaBlocksMain_judged (hks : isKillswitchEnabled r.reqStorage = true)
    {past : Past r} {gate : MainGate} {made : Option (FallbackCandidateSelection r)}
    (hmade : ∀ selection, made = some selection →
      SelectionPassed dateParse (readings m₀ past) selection)
    {Q : Bool × Option (FallbackCandidateSelection r) → Past r → Prop}
    (h : ∀ blocks selection later,
      (∀ made, selection = some made → SelectionPassed dateParse (readings m₀ later) made) →
      (∀ m ∈ (readings m₀ past).seen, m ∈ (readings m₀ later).seen) →
      r.dispatch.sent later = r.dispatch.sent past → Q (blocks, selection) later) :
    Judged dateParse m₀ past (quotaBlocksMain dateParse r gate made) Q := by
  unfold quotaBlocksMain
  split
  · refine Learning.ends_bind (requestFallbackSelection_judged hks hmade ?_)
    intro selection later hpassed hseen hsent
    refine Learning.ends_pure (h _ _ later (fun other hother => ?_) hseen hsent)
    rw [← Option.some.inj hother]
    exact hpassed
  · exact Learning.ends_pure (h _ _ past hmade (fun _ hm => hm) rfl)

theorem serveMain_judged (hks : isKillswitchEnabled r.reqStorage = true) {past : Past r}
    {m : Moment} (hm : m ∈ (readings m₀ past).seen)
    {made : Option (FallbackCandidateSelection r)}
    (hmade : ∀ selection, made = some selection →
      SelectionPassed dateParse (readings m₀ past) selection) :
    Judged dateParse m₀ past (serveMain dateParse r (mainGate dateParse r m) made)
      fun served later => Answered dateParse m₀ served.1 later ∧
        ∀ selection, served.2 = some selection →
          SelectionPassed dateParse (readings m₀ later) selection := by
  unfold serveMain
  refine Learning.ends_bind (quotaBlocksMain_judged hks hmade ?_)
  intro blocks selection later hpassed hseen hsent
  dsimp only
  split
  · exact Learning.ends_pure ⟨fun _ => .inl rfl, hpassed⟩
  · rename_i hblocked
    -- main is not below its floor, so the reading at the gate passed
    have hmain : Passed dateParse (readings m₀ later) .main := by
      simp only [Bool.or_eq_true, not_or, Bool.not_eq_true] at hblocked
      have hgate : (mainGate dateParse r m).killswitchBlocksMain = false := hblocked.1.1
      refine .main (hseen m hm) ?_
      simpa [mainGate, hks] using hgate
    split
    · exact Learning.ends_pure ⟨fun _ => .inr hmain, hpassed⟩
    · refine Learning.ends_bind (send_judged (Grounds.of_passed hmain) ?_)
      intro response later' last hreadings hlast
      have hgrows : Grows (readings m₀ later) (readings m₀ last) := by
        rw [hreadings]
        exact Grows.move _ later'
      exact Learning.ends_pure ⟨fun hnone => absurd hnone hlast,
        fun other hother => (hpassed other hother).grows hgrows⟩

theorem finishRequest_judged {past : Past r} {response : Response} {fallbackServed : Bool}
    (h : Answered dateParse m₀ response past) :
    Judged dateParse m₀ past (finishRequest r response fallbackServed) (Answered dateParse m₀) := by
  unfold finishRequest
  split
  · refine Learning.ends_bind (placeholder_judged ?_)
    intro missing later hreadings hsent
    split
    · exact Learning.ends_throw fun _ => rfl
    · refine Learning.ends_pure fun hnone => ?_
      rw [hreadings]
      exact h (hsent ▸ hnone)
  · exact Learning.ends_pure h

theorem serveAdmitted_judged (hks : isKillswitchEnabled r.reqStorage = true) {past : Past r}
    {m : Moment} (overlay : StickyPinOverlay) (hm : m ∈ (readings m₀ past).seen) :
    Judged dateParse m₀ past (serveAdmitted dateParse r { m with overlay })
      (Answered dateParse m₀) := by
  have hgate : mainGate dateParse r { m with overlay } = mainGate dateParse r m := rfl
  unfold serveAdmitted
  rw [hgate]
  dsimp only
  split
  · refine Learning.ends_bind (usableFallbackCandidates_judged hks ?_)
    intro selection later hpassed hseen hsent
    refine Learning.ends_bind (Learning.ends_mono
      (tryFallbackFirst_judged (hpassed.admitted _)) ?_)
    rintro served last ⟨hgrows, hserved⟩
    cases served with
    | some response =>
        exact finishRequest_judged fun hnone => absurd hnone (hserved rfl)
    | none =>
        refine Learning.ends_bind (Learning.ends_mono
          (serveMain_judged hks (hgrows.seen m (hseen m hm)) ?_) ?_)
        · intro other hother
          rw [← Option.some.inj hother]
          exact hpassed.grows hgrows
        · rintro ⟨response, _⟩ final hanswered
          exact finishRequest_judged hanswered.1
  · refine Learning.ends_bind (Learning.ends_mono (serveMain_judged hks hm (by simp)) ?_)
    rintro ⟨response, made⟩ later ⟨hanswered, hpassed⟩
    dsimp only
    split
    · refine Learning.ends_bind (requestFallbackSelection_judged hks hpassed ?_)
      intro selection last hselection hseen hsent
      have hlast : Answered dateParse m₀ response last := by
        intro hnone
        rcases hanswered (hsent ▸ hnone) with hrefused | hmain
        · exact .inl hrefused
        · cases hmain with
          | main hseenMain hpasses => exact .inr (.main (hseen _ hseenMain) hpasses)
      refine Learning.ends_bind (Learning.ends_mono (Q := Answered dateParse m₀) ?_ ?_)
      · unfold tryFallbackAccounts
        split
        · exact Learning.ends_pure hlast
        · exact retryFallbacks_judged hlast (hselection.admitted _)
      · intro final past' hfinal
        exact finishRequest_judged hfinal
    · exact finishRequest_judged hanswered

/-! ## The sticky path -/

/-- The roster as it is built from a listing. -/
def rosterOf (dateParse : String → Option ℚ) (l : Listing r) : List (StickyRouteCandidate r) :=
  pushFallbacks dateParse r l.before.now l.later l.usable.offers
    (if r.mainUnavailable then [] else [mainCandidate dateParse r l.before])

theorem rosterOf_candidate (l : Listing r) {c : StickyRouteCandidate r}
    (hc : c ∈ rosterOf dateParse l) :
    RosterCandidate dateParse r l.before l.later l.usable.offers c := by
  refine mem_pushFallbacks (fun _ hoffer => hoffer) ?_ hc
  intro c' hc'
  split at hc'
  · cases hc'
  · rw [List.mem_singleton.mp hc']
    exact .main

theorem buildStickyRouteRoster_judged (past : Past r)
    {Q : List (StickyRouteCandidate r) × Moment → Past r → Prop}
    (h : ∀ usable later past', readings m₀ past' = (readings m₀ past).list usable later →
      r.dispatch.sent past' = r.dispatch.sent past →
      Q (rosterOf dateParse ⟨(readings m₀ past).latest, usable, later⟩, later) past') :
    Judged dateParse m₀ past (buildStickyRouteRoster dateParse r (readings m₀ past).latest) Q := by
  refine Learning.ends_bind (getUsable_judged ?_)
  intro usable later past' hreadings hsent
  exact Learning.ends_pure (h usable later past' hreadings hsent)

section Pin

variable {k : Readings r} {l : Listing r} {sessionHash : String} {c : StickyRouteCandidate r}
  {first : Prop}

/-- A candidate chosen for the session has passed, or one of its id has. -/
theorem grounds_of_chosen (hks : isKillswitchEnabled r.reqStorage = true)
    (hlisted : k.listed = some l) (hbefore : l.before ∈ k.seen) (hc : c ∈ rosterOf dateParse l)
    (hchosen : ∃ chosen ∈ rosterOf dateParse l, chosen.accountId = c.accountId ∧
      chosen.killswitchPasses ≠ some false) : Grounds dateParse k first c.account := by
  obtain ⟨chosen, hmem, hid, hpasses⟩ := hchosen
  have hcandidate := rosterOf_candidate l hmem
  refine .passed ?_ (hcandidate.passed hks hpasses hlisted hbefore)
  rw [hcandidate.accountId, (rosterOf_candidate l hc).accountId, hid]

/-- The pin a placement was shown is the account the session is pinned to. -/
theorem pinnedId_of_shown (hsession : r.stickySession = some sessionHash)
    {input : ResolveStickyAssignmentInput} (hinput : input.sessionHash = sessionHash)
    {pin : StickyAssignment}
    (h : shownPin r.sidebarSnapshot k.latest.overlay input = some pin) :
    pinnedId k = some pin.accountId := by
  have hpin := (Option.filter_eq_some_iff.mp h).1
  rw [hinput] at hpin
  simp [pinnedId, hsession, hpin]

/-- A session just placed has no pin left once its account is excluded. -/
theorem shown_again {roster : List (StickyRouteCandidate r)} {m : Moment}
    {overlay : StickyPinOverlay}
    (h : resolveStickyRouteCandidate dateParse r sessionHash roster [] m = (some c, overlay)) :
    shownPin r.sidebarSnapshot overlay
      (pinInput r sessionHash roster [c.accountId] { m with overlay }) = none := by
  obtain ⟨assignment, hplaced, hfound⟩ := Option.bind_eq_some_iff.mp (congrArg Prod.fst h)
  have hid : assignment.accountId = c.accountId := ((candidateById_some hfound).2).symm
  have hfresh := place_again (pinInput r sessionHash roster [c.accountId] { m with overlay })
    hplaced rfl (by simp [pinInput, hid])
  have hoverlay : (placeStickyPin r.sidebarSnapshot m.overlay (pinInput r sessionHash roster [] m)
      (selectForPin dateParse r roster [] m) true).2 = overlay := congrArg Prod.snd h
  rwa [hoverlay] at hfresh

/-- The session's own pin is sent with first only where nothing counts against
it, or no account is there to take the session. -/
theorem kept_beforeSend (hks : isKillswitchEnabled r.reqStorage = true)
    (hlisted : k.listed = some l) {overlay : StickyPinOverlay}
    (hresolve : resolveStickyRouteCandidate dateParse r sessionHash (rosterOf dateParse l) []
      k.latest = (some c, overlay))
    (hc : c ∈ rosterOf dateParse l) (hpinned : pinnedId k = some c.accountId)
    (hkilled : c.killswitchPasses = some false)
    (hstays : (resolveStickyRouteCandidate dateParse r sessionHash (rosterOf dateParse l)
        [c.accountId] { k.latest with overlay }).1 = none ∨
      (stickyBreakDecision dateParse r c none { k.latest with overlay }).migrates = false) :
    Kept dateParse k first c.account := by
  have hcandidate := rosterOf_candidate l hc
  refine ⟨hpinned.trans (congrArg some hcandidate.accountId.symm), ?_⟩
  rintro - hfresh ⟨other, hother, hne⟩
  rcases hstays with hnone | hretained
  · -- nobody takes the session, yet one account could
    obtain ⟨c', hc', hid, hpasses, hfree⟩ := hother.candidate hks hlisted
    have hexcluded : c'.accountId ∉ [c.accountId] := by
      rw [List.mem_singleton, hid]
      intro hsame
      exact hne (hsame.trans hcandidate.accountId.symm)
    have hblocked := resolve_none hnone (shown_again hresolve) hc' hfree hexcluded
    rw [hpasses] at hblocked
    cases hblocked
  · -- a fresh reading below the floor is a reason to leave
    have hreading := hcandidate.fresh hlisted hfresh
    have hdecision : stickyBreakDecision dateParse r c none { k.latest with overlay } =
        decideStickyBreak dateParse (freshestReading r c.accountId c.wireAccountId k.latest) none
          k.latest.now (some false) := by
      simp only [stickyBreakDecision, hks, if_true, hkilled]
      rfl
    rw [hdecision, decideStickyBreak_killed hreading] at hretained
    cases hretained

/-- The account a sticky request is sent with first. -/
theorem grounds_beforeSend (hks : isKillswitchEnabled r.reqStorage = true)
    (hsession : r.stickySession = some sessionHash) (hlisted : k.listed = some l)
    (hbefore : l.before ∈ k.seen) {overlay : StickyPinOverlay}
    (hresolve : resolveStickyRouteCandidate dateParse r sessionHash (rosterOf dateParse l) []
      k.latest = (some c, overlay)) :
    Grounds dateParse k first
      (beforeSend dateParse r sessionHash (rosterOf dateParse l) c
        { k.latest with overlay }).account := by
  obtain ⟨hc, -, hpinned⟩ := resolve_sound (congrArg Prod.fst hresolve)
  -- what the session is placed on has grounds where it stays there
  have hstays : ((resolveStickyRouteCandidate dateParse r sessionHash (rosterOf dateParse l)
        [c.accountId] { k.latest with overlay }).1 = none ∨
      (stickyBreakDecision dateParse r c none { k.latest with overlay }).migrates = false) →
      Grounds dateParse k first c.account := by
    intro hreason
    by_cases hkilled : c.killswitchPasses = some false
    · rcases hpinned with ⟨pin, hshown, hpinId⟩ | ⟨-, hchosen⟩
      · have hpinnedId := pinnedId_of_shown hsession rfl hshown
        rw [hpinId] at hpinnedId
        exact .kept (kept_beforeSend hks hlisted hresolve hc hpinnedId hkilled hreason)
      · exact grounds_of_chosen hks hlisted hbefore hc hchosen
    · exact .of_passed ((rosterOf_candidate l hc).passed hks hkilled hlisted hbefore)
  unfold beforeSend
  split
  · cases hagain : (resolveStickyRouteCandidate dateParse r sessionHash (rosterOf dateParse l)
        [c.accountId] { k.latest with overlay }).1 with
    | none => exact hstays (.inl hagain)
    | some replacement =>
        obtain ⟨hmem, -, hshown | ⟨-, hchosen⟩⟩ := resolve_sound hagain
        · obtain ⟨pin, hpin, -⟩ := hshown
          rw [shown_again hresolve] at hpin
          cases hpin
        · exact grounds_of_chosen hks hlisted hbefore hmem hchosen
  · rename_i hretained
    simp only [Bool.or_eq_true, not_or, Bool.not_eq_true] at hretained
    exact hstays (.inr hretained.2)

end Pin

theorem serveSticky_judged (hks : isKillswitchEnabled r.reqStorage = true) {past : Past r}
    {sessionHash : String} (hsession : r.stickySession = some sessionHash) {l : Listing r}
    (hlisted : (readings m₀ past).listed = some l) (hbefore : l.before ∈ (readings m₀ past).seen)
    {candidate : StickyRouteCandidate r} {m : Moment} {overlay : StickyPinOverlay}
    (hm : m = (readings m₀ past).latest)
    (hresolve : resolveStickyRouteCandidate dateParse r sessionHash (rosterOf dateParse l) [] m =
      (some candidate, overlay)) :
    Judged dateParse m₀ past
      (serveSticky dateParse r sessionHash (rosterOf dateParse l) candidate { m with overlay })
      (Answered dateParse m₀) := by
  subst hm
  unfold serveSticky
  dsimp only
  refine Learning.ends_bind (send_judged
    (grounds_beforeSend hks hsession hlisted hbefore hresolve) ?_)
  intro response later past' hreadings hsent
  have hanswered : Answered dateParse m₀ response past' := fun hnone => absurd hnone hsent
  have hgrows : Grows (readings m₀ past) (readings m₀ past') := by
    rw [hreadings]
    exact Grows.move _ later
  have hlatest : later = (readings m₀ past').latest := by rw [hreadings]; rfl
  have hlisted' := hgrows.listed.trans hlisted
  have hbefore' := hgrows.seen _ hbefore
  dsimp only
  split
  · split
    · exact Learning.ends_pure hanswered
    · rename_i replacement hagain
      rw [hlatest] at hagain
      have hgrounds : Grounds dateParse (readings m₀ past') (r.dispatch.sent past' = [])
          replacement.account := by
        obtain ⟨hmem, -, ⟨pin, hshown, hid⟩ | ⟨-, hchosen⟩⟩ := resolve_sound hagain
        · -- another request of the session has pinned it meanwhile
          have hpinnedId := pinnedId_of_shown hsession rfl hshown
          rw [hid, ← (rosterOf_candidate l hmem).accountId] at hpinnedId
          exact .kept ⟨hpinnedId, fun hnone => absurd hnone hsent⟩
        · exact grounds_of_chosen hks hlisted' hbefore' hmem hchosen
      refine Learning.ends_bind (send_judged hgrounds ?_)
      intro response' later' past'' _ hsent'
      refine Learning.ends_bind (cancel_judged ?_)
      intro last _ hlast
      exact Learning.ends_pure fun hnone => absurd (hlast ▸ hnone) hsent'
  · exact Learning.ends_pure hanswered

theorem serveLegacy_judged (hks : isKillswitchEnabled r.reqStorage = true) :
    Judged dateParse m₀ [] (serveLegacy dateParse r m₀) (Answered dateParse m₀) := by
  unfold serveLegacy
  cases hsession : r.stickySession with
  | none => exact serveAdmitted_judged hks m₀.overlay (List.mem_singleton_self m₀)
  | some sessionHash =>
      refine Learning.ends_bind (buildStickyRouteRoster_judged [] ?_)
      intro usable later past hreadings _
      have hlatest : later = (readings m₀ past).latest := by rw [hreadings]; rfl
      have hlisted : (readings m₀ past).listed = some ⟨m₀, usable, later⟩ := by
        rw [hreadings]
        rfl
      have hseen : m₀ ∈ (readings m₀ past).seen ∧ later ∈ (readings m₀ past).seen := by
        rw [hreadings]
        exact ⟨List.mem_append_left _ (List.mem_singleton_self m₀),
          List.mem_append_right _ (List.mem_singleton_self later)⟩
      dsimp only
      split
      · rename_i candidate hcandidate
        exact serveSticky_judged hks hsession hlisted hseen.1 hlatest
          (Prod.ext hcandidate rfl)
      · exact serveAdmitted_judged hks _ hseen.2

end Walk

/-! ## The killswitch -/

/-- Whether the account's quota passes as the request finds it now. -/
def PassesNow (dateParse : String → Option ℚ) (k : Readings r) (account : r.Account) : Prop :=
  match account with
  | .main => mainPasses dateParse r.reqStorage r.mainAccountIdentity k.latest.now k.latest = true
  | .row i => ∃ l offer, k.listed = some l ∧ offer ∈ l.usable.offers ∧ offer.row = i ∧
      fallbackPasses dateParse r.reqStorage (r.rows.get i).id offer.accountId k.latest.now
        k.latest = true

/-- The killswitch is on with its default floors. -/
def killswitchStorage : AccountStorage where
  killswitch := some { enabled := true, rules := .thresholds none .empty }
  accounts := [⟨"work", true⟩]

/-- A session pinned to main. -/
def pinnedRequest : RequestContext where
  mode := .stickyBalanced
  replayable := true
  sessionHash := some "session"
  requestBytes := 1
  reqStorage := some killswitchStorage
  mainInPool := false
  mainUnavailable := false
  primaryAccess := "main-token"
  mainAccountIdentity := none
  sidebarSnapshot :=
    { state :=
        { stickyAssignments := some (Js.Table.empty.set "session"
            { accountId := "main", assignedAt := 0, lastSeenAt := 0, inputBytes := 0 }) }
      readAt := 0
      started := none }

/-- Twenty minutes ago main had three percent left; the other account has ninety. -/
def staleMoment : Moment where
  now := 1200000
  quotas :=
    { main := some { quota := { primary := some { usedPercent := 97, remainingPercent := 3 } },
                     checkedAt := 0 }
      fallbacks := Js.Table.empty.set "work"
        { quota := { primary := some { usedPercent := 10, remainingPercent := 90 } },
          checkedAt := 1200000 } }
  overlay := .empty

def workListed : Exchange (sig pinnedRequest.rows.length) :=
  ⟨.getUsableFallbackAccounts,
    (⟨[⟨(⟨0, Nat.one_pos⟩ : Fin 1), some "work-token", none⟩], by decide⟩, staleMoment)⟩

def mainSent : Exchange (sig pinnedRequest.rows.length) :=
  ⟨.sendWithAccessToken .main "main-token", (.response 0 200, staleMoment)⟩

theorem stalePin_makes : (serveLegacy (fun _ => none) pinnedRequest staleMoment).run.Makes
    [workListed, mainSent] (.ret (.ok ⟨.wire 0, 200⟩)) :=
  Prog.makes_of_value (by decide +kernel)

end Request.Legacy
