import OpenaiAuth.Request.Legacy

/-! # What one legacy request sends

The proactive, main, reactive and sticky sends are separate loops. What they
share is read off the calls: which accounts were sent to, whether a send threw,
which bodies were obtained and cancelled. Every function below is described by
what it adds to that.

Main result: `legacy_send_discipline`.
-/

namespace Request.Legacy

open Interleave Sidebar Sidebar.Overlay Sidebar.Placement

/-! ## Reading the calls -/

/-- Sends, and the bodies they obtain. -/
def dispatch (n : Nat) : Dispatch (sig n) (RouteAccount n) Body where
  target := fun o =>
    match o with
    | .sendWithAccessToken account _ => some account
    | _ => none
  outcome := fun o =>
    match o with
    | .sendWithAccessToken _ _ => fun r =>
        match r.1 with
        | .response stream _ => .responded (.wire stream)
        | .threw _ => .threw
    | _ => fun _ => .nothing
  discards := fun o =>
    match o with
    | .cancel body => some body
    | _ => none

variable {dateParse : String → Option ℚ} {r : RequestContext}

abbrev Past (r : RequestContext) : Type := List (Exchange (sig r.rows.length))

abbrev RequestContext.dispatch (r : RequestContext) :
    Dispatch (sig r.rows.length) r.Account Body :=
  Legacy.dispatch r.rows.length

/-- The program makes only sends that the discipline allows, and what it returns
meets `Q`. -/
abbrev Sends {α : Type} (past : Past r) (p : RequestM r α) (Q : α → Past r → Prop) : Prop :=
  (Learning.history (sig r.rows.length)).Returns (r.dispatch.May r.replayable) past p Q

/-! ## One call -/

theorem getUsable_spec {past : Past r} {Q : Usable r.rows.length × Moment → Past r → Prop}
    (h : ∀ usable later, r.dispatch.Quiet past later → Q usable later) :
    Sends past (getUsableFallbackAccounts (n := r.rows.length)) Q := by
  refine Learning.returns_perform (Dispatch.may_of_no_target rfl) ?_
  intro answer usable _
  exact h usable _ (Dispatch.quiet_step rfl rfl)

theorem placeholder_spec {past : Past r} {Q : Bool → Past r → Prop}
    (h : ∀ missing later, r.dispatch.Quiet past later → Q missing later) :
    Sends past (poolPlaceholderWithoutMain (n := r.rows.length)) Q := by
  refine Learning.returns_perform (Dispatch.may_of_no_target rfl) ?_
  intro answer missing _
  exact h missing _ (Dispatch.quiet_step rfl rfl)

theorem cancel_spec {past : Past r} {response : Response} {Q : Unit → Past r → Prop}
    (h : ∀ later, r.dispatch.Cancelled past later response.body → Q () later) :
    Sends past (cancel (n := r.rows.length) response) Q := by
  refine Learning.returns_perform (Dispatch.may_of_no_target rfl) ?_
  intro answer _ _
  exact h _ (Dispatch.cancelled_step rfl rfl)

theorem send_justified {past : Past r} {account : r.Account} {access : String}
    (hfresh : account ∉ r.dispatch.sent past) (hopen : r.dispatch.Open r.replayable past)
    {Q : Except Failure (Response × Moment) → Past r → Prop}
    (hok : ∀ stream status m later, r.dispatch.Responded past later account (.wire stream) →
      Q (.ok (⟨.wire stream, status⟩, m)) later)
    (hthrow : ∀ aborted later, r.dispatch.Fruitless past later account →
      Q (.error (.transport aborted)) later) :
    (Learning.history (sig r.rows.length)).Justified (r.dispatch.May r.replayable) past
      (sendWithAccessToken account access).run Q := by
  refine ⟨hopen.may ?_, ?_⟩
  · intro a ha
    obtain rfl : account = a := by simpa [RequestContext.dispatch, dispatch] using ha
    exact hfresh
  · rintro ⟨answer, m⟩
    cases answer with
    | response stream status => exact hok stream status m _ (Dispatch.responded_step rfl rfl rfl)
    | threw aborted => exact hthrow aborted _ (Dispatch.fruitless_step rfl rfl rfl)

theorem send_spec {past : Past r} {account : r.Account} {access : String}
    (hfresh : account ∉ r.dispatch.sent past) (hopen : r.dispatch.Open r.replayable past)
    {Q : Response × Moment → Past r → Prop}
    (hok : ∀ stream status m later, r.dispatch.Responded past later account (.wire stream) →
      Q (⟨.wire stream, status⟩, m) later) :
    Sends past (sendWithAccessToken account access) Q := by
  refine send_justified hfresh hopen ?_ ?_
  · intro stream status m later h a ha
    cases ha
    exact hok stream status m later h
  · intro aborted later _ a ha
    cases ha

/-! ## Fallbacks -/

/-- No row occurs twice among the candidates. -/
abbrev Distinct (candidates : List (FallbackCandidate r)) : Prop :=
  (candidates.map (·.row)).Nodup

/-- None of the candidates has been sent to. -/
abbrev Untried (past : Past r) (candidates : List (FallbackCandidate r)) : Prop :=
  ∀ candidate ∈ candidates, RouteAccount.row candidate.row ∉ r.dispatch.sent past

theorem Untried.tail {past later : Past r} {candidate : FallbackCandidate r}
    {candidates : List (FallbackCandidate r)} (h : Untried past (candidate :: candidates))
    (hdistinct : Distinct (candidate :: candidates))
    (hsent : r.dispatch.sent later = r.dispatch.sent past ++ [.row candidate.row]) :
    Untried later candidates := by
  intro other hother
  rw [hsent, List.mem_append, List.mem_singleton]
  rintro (hold | hnew)
  · exact h other (List.mem_cons_of_mem _ hother) hold
  · have hrow : other.row = candidate.row := by simpa using hnew
    exact (List.nodup_cons.mp hdistinct).1 (List.mem_map.mpr ⟨other, hother, hrow⟩)

/-- What `tryFallbackFirst` leaves behind: the response that serves, or a
request that is still free to send main. -/
structure FirstTried (served : Option Response) (later : Past r) : Prop where
  serves : ∀ response, served = some response → r.dispatch.Delivered [] later response.body
  falls : served = none →
    r.dispatch.Open r.replayable later ∧ r.dispatch.Spent [] later ∧
      RouteAccount.main ∉ r.dispatch.sent later

theorem tryFallbackFirst_spec (hreplayable : r.replayable = true)
    {candidates : List (FallbackCandidate r)} {past : Past r}
    (hopen : r.dispatch.Open r.replayable past) (hspent : r.dispatch.Spent [] past)
    (hmain : RouteAccount.main ∉ r.dispatch.sent past) (hdistinct : Distinct candidates)
    (huntried : Untried past candidates) :
    Sends past (tryFallbackFirst r candidates) FirstTried := by
  induction candidates generalizing past with
  | nil =>
      refine Learning.returns_pure ⟨fun _ hserved => ?_, fun _ => ⟨hopen, hspent, hmain⟩⟩
      cases hserved
  | cons candidate candidates ih =>
      rw [tryFallbackFirst]
      refine Learning.returns_bind (send_spec (huntried candidate List.mem_cons_self) hopen ?_)
      intro stream status m later hresponded
      dsimp only
      split
      · -- this one failed too: its body goes before the next is tried
        refine Learning.returns_bind (cancel_spec ?_)
        intro last hcancelled
        have hsent : r.dispatch.sent last = r.dispatch.sent past ++ [.row candidate.row] :=
          hcancelled.sent.trans hresponded.sent
        refine ih ((hopen.of_responded hreplayable hresponded).of_cancelled hcancelled)
          ((hspent.responded hresponded).cancelled hcancelled) ?_
          (List.nodup_cons.mp hdistinct).2 (huntried.tail hdistinct hsent)
        rw [hsent]
        simpa using hmain
      · refine Learning.returns_pure ⟨fun response hserved => ?_, fun hnone => ?_⟩
        · rw [Option.some.injEq] at hserved
          rw [← hserved]
          exact hspent.responded hresponded
        · cases hnone

theorem retryFallbacks_spec (hreplayable : r.replayable = true)
    {candidates : List (FallbackCandidate r)} {past : Past r} {lastResponse : Response}
    {made : List Body} (hopen : r.dispatch.Open r.replayable past)
    (hlive : r.dispatch.Delivered made past lastResponse.body) (hdistinct : Distinct candidates)
    (huntried : Untried past candidates) :
    Sends past (retryFallbacks r candidates lastResponse)
      fun response later => r.dispatch.Delivered made later response.body := by
  induction candidates generalizing past lastResponse with
  | nil => exact Learning.returns_pure hlive
  | cons candidate candidates ih =>
      rw [retryFallbacks]
      refine Learning.returns_bind (Learning.returns_attempt
        (send_justified (huntried candidate List.mem_cons_self) hopen ?_ ?_))
      · intro stream status m later hresponded
        refine Learning.returns_bind (cancel_spec ?_)
        intro last hcancelled
        have hsent : r.dispatch.sent last = r.dispatch.sent past ++ [.row candidate.row] :=
          hcancelled.sent.trans hresponded.sent
        have hnext : r.dispatch.Delivered made last (.wire stream) :=
          hlive.replaced hresponded hcancelled
        dsimp only
        split
        · exact ih ((hopen.of_responded hreplayable hresponded).of_cancelled hcancelled) hnext
            (List.nodup_cons.mp hdistinct).2 (huntried.tail hdistinct hsent)
        · exact Learning.returns_pure hnext
      · -- a throw ends the loop: the last response is still whole
        intro aborted later hfruitless
        cases aborted with
        | false => exact Learning.returns_pure (hlive.of_fruitless hfruitless)
        | true => exact Learning.returns_throw

/-- The rows of a selection are distinct. -/
structure SelectionDistinct (selection : FallbackCandidateSelection r) : Prop where
  current : Distinct selection.current
  retained : Distinct selection.retained

theorem SelectionDistinct.admitted {selection : FallbackCandidateSelection r}
    (h : SelectionDistinct selection) (mainRemainsCandidate : Bool) :
    Distinct (applyAdmissionQuotaSafety r selection mainRemainsCandidate) := by
  unfold applyAdmissionQuotaSafety
  split
  · exact h.current
  · exact h.retained

theorem usableFallbackCandidates_spec {past : Past r}
    {Q : FallbackCandidateSelection r → Past r → Prop}
    (h : ∀ selection later, r.dispatch.Quiet past later → SelectionDistinct selection →
      Q selection later) :
    Sends past (usableFallbackCandidates dateParse r) Q := by
  refine Learning.returns_bind (getUsable_spec ?_)
  rintro ⟨usable, m⟩ later hquiet
  have hcurrent : Distinct (currentCandidates dateParse r (offered r usable.offers) m) :=
    (offered_nodup usable).sublist ((currentCandidates_sublist _ m).map _)
  exact Learning.returns_pure (h _ later hquiet
    ⟨hcurrent, hcurrent.sublist (List.filter_sublist.map _)⟩)

theorem requestFallbackSelection_spec {past : Past r}
    {made : Option (FallbackCandidateSelection r)}
    (hmade : ∀ selection, made = some selection → SelectionDistinct selection)
    {Q : FallbackCandidateSelection r → Past r → Prop}
    (h : ∀ selection later, r.dispatch.Quiet past later → SelectionDistinct selection →
      Q selection later) :
    Sends past (requestFallbackSelection dateParse r made) Q := by
  cases made with
  | none => exact usableFallbackCandidates_spec h
  | some selection =>
      exact Learning.returns_pure (h selection past ⟨rfl, rfl, rfl, rfl⟩ (hmade selection rfl))

/-! ## Main -/

theorem quotaBlocksMain_spec {past : Past r} {gate : MainGate}
    {made : Option (FallbackCandidateSelection r)}
    (hmade : ∀ selection, made = some selection → SelectionDistinct selection)
    {Q : Bool × Option (FallbackCandidateSelection r) → Past r → Prop}
    (h : ∀ blocks selection later, r.dispatch.Quiet past later →
      (∀ made, selection = some made → SelectionDistinct made) → Q (blocks, selection) later) :
    Sends past (quotaBlocksMain dateParse r gate made) Q := by
  unfold quotaBlocksMain
  split
  · refine Learning.returns_bind (requestFallbackSelection_spec hmade ?_)
    intro selection later hquiet hdistinct
    refine Learning.returns_pure (h _ _ later hquiet fun other hother => ?_)
    rw [← Option.some.inj hother]
    exact hdistinct
  · exact Learning.returns_pure (h _ _ past ⟨rfl, rfl, rfl, rfl⟩ hmade)

/-- What `serveMain` leaves behind. No fallback has been sent to by it. -/
structure MainServed (past : Past r)
    (served : Response × Option (FallbackCandidateSelection r)) (later : Past r) : Prop where
  live : ∃ made, (made = [] ∨ made = [Body.refusal] ∨ made = [Body.unavailable]) ∧
    r.dispatch.Delivered made later served.1.body
  quiet : r.dispatch.threw later = false
  rows : ∀ i, RouteAccount.row i ∈ r.dispatch.sent later → RouteAccount.row i ∈ r.dispatch.sent past
  distinct : ∀ selection, served.2 = some selection → SelectionDistinct selection

theorem serveMain_spec {past : Past r} {gate : MainGate}
    {made : Option (FallbackCandidateSelection r)}
    (hmade : ∀ selection, made = some selection → SelectionDistinct selection)
    (hopen : r.dispatch.Open r.replayable past) (hspent : r.dispatch.Spent [] past)
    (hmain : RouteAccount.main ∉ r.dispatch.sent past) :
    Sends past (serveMain dateParse r gate made) (MainServed past) := by
  unfold serveMain
  refine Learning.returns_bind (quotaBlocksMain_spec hmade ?_)
  intro blocks selection later hquiet hdistinct
  have hrows : ∀ i, RouteAccount.row i ∈ r.dispatch.sent later →
      RouteAccount.row i ∈ r.dispatch.sent past := by
    intro i hi
    rwa [hquiet.sent] at hi
  dsimp only
  split
  · -- blocked: the refusal is made here
    exact Learning.returns_pure ⟨⟨[.refusal], .inr (.inl rfl), (hspent.of_quiet hquiet).make⟩,
      hquiet.threw.trans hopen.quiet, hrows, hdistinct⟩
  · split
    · exact Learning.returns_pure ⟨⟨[.unavailable], .inr (.inr rfl),
        (hspent.of_quiet hquiet).make⟩, hquiet.threw.trans hopen.quiet, hrows, hdistinct⟩
    · have hfresh : RouteAccount.main ∉ r.dispatch.sent later := by rwa [hquiet.sent]
      refine Learning.returns_bind (send_spec hfresh (hopen.of_quiet hquiet) ?_)
      intro stream status m last hresponded
      refine Learning.returns_pure ⟨⟨[], .inl rfl, (hspent.of_quiet hquiet).responded hresponded⟩,
        hresponded.threw.trans (hquiet.threw.trans hopen.quiet), ?_, hdistinct⟩
      intro i hi
      rw [hresponded.sent, List.mem_append, List.mem_singleton] at hi
      exact hrows i (hi.resolve_right (by simp))

/-- A response is in hand and is the one that is whole. -/
def Whole (response : Response) (later : Past r) : Prop :=
  ∃ made, (made = [] ∨ made = [Body.refusal] ∨ made = [Body.unavailable]) ∧
    r.dispatch.Delivered made later response.body

theorem finishRequest_spec {past : Past r} {response : Response} {fallbackServed : Bool}
    (h : Whole response past) :
    Sends past (finishRequest r response fallbackServed) Whole := by
  unfold finishRequest
  split
  · refine Learning.returns_bind (placeholder_spec ?_)
    rintro missing later hquiet
    obtain ⟨made, hmade, hlive⟩ := h
    split
    · exact Learning.returns_throw
    · exact Learning.returns_pure ⟨made, hmade, hlive.of_quiet hquiet⟩
  · exact Learning.returns_pure h

theorem serveAdmitted_spec {past : Past r} {m : Moment} (hsent : r.dispatch.sent past = [])
    (hopen : r.dispatch.Open r.replayable past) (hspent : r.dispatch.Spent [] past) :
    Sends past (serveAdmitted dateParse r m) Whole := by
  unfold serveAdmitted
  dsimp only
  split
  · -- fallback-first: every fallback is tried before main, and none after it
    rename_i hfirst
    have hreplayable : r.replayable = true := (Bool.and_eq_true_iff.mp hfirst).2
    refine Learning.returns_bind (usableFallbackCandidates_spec ?_)
    intro selection later hquiet hdistinct
    have hnone : r.dispatch.sent later = [] := hquiet.sent.trans hsent
    refine Learning.returns_bind (Learning.returns_mono (tryFallbackFirst_spec hreplayable
      (hopen.of_quiet hquiet) (hspent.of_quiet hquiet) (by simp [hnone])
      (hdistinct.admitted _) (fun _ _ => by simp [hnone])) ?_)
    intro served last htried
    cases served with
    | some response => exact finishRequest_spec ⟨[], .inl rfl, htried.serves response rfl⟩
    | none =>
        obtain ⟨hlastOpen, hlastSpent, hlastMain⟩ := htried.falls rfl
        refine Learning.returns_bind (Learning.returns_mono
          (serveMain_spec ?_ hlastOpen hlastSpent hlastMain) ?_)
        · intro other hother
          rw [← Option.some.inj hother]
          exact hdistinct
        · rintro ⟨response, _⟩ final hserved
          exact finishRequest_spec hserved.live
  · refine Learning.returns_bind (Learning.returns_mono
      (serveMain_spec (by simp) hopen hspent (by simp [hsent])) ?_)
    rintro ⟨response, made⟩ later hserved
    dsimp only
    split
    · refine Learning.returns_bind (requestFallbackSelection_spec hserved.distinct ?_)
      intro selection last hquiet hdistinct
      obtain ⟨bodies, hbodies, hlive⟩ := hserved.live
      refine Learning.returns_bind (Learning.returns_mono (Q := Whole) ?_ ?_)
      · unfold tryFallbackAccounts
        split
        · exact Learning.returns_pure ⟨bodies, hbodies, hlive.of_quiet hquiet⟩
        · rename_i hreplayable
          have hrep : r.replayable = true := by simpa using hreplayable
          refine Learning.returns_mono (retryFallbacks_spec hrep
            ⟨hquiet.threw.trans hserved.quiet, fun hnot => ?_⟩ (hlive.of_quiet hquiet)
            (hdistinct.admitted _) ?_) (fun final _ hfinal => ⟨bodies, hbodies, hfinal⟩)
          · rw [hrep] at hnot
            cases hnot
          · intro candidate _ hmem
            rw [hquiet.sent] at hmem
            simpa [hsent] using hserved.rows candidate.row hmem
      · intro final past' hwhole
        exact finishRequest_spec hwhole
    · exact finishRequest_spec hserved.live

/-! ## The sticky path -/

theorem buildStickyRouteRoster_spec {past : Past r} {m : Moment}
    {Q : List (StickyRouteCandidate r) × Moment → Past r → Prop}
    (h : ∀ roster m' later, r.dispatch.Quiet past later →
      (∃ offers, ∀ c ∈ roster, RosterCandidate dateParse r m m' offers c) → Q (roster, m') later) :
    Sends past (buildStickyRouteRoster dateParse r m) Q := by
  refine Learning.returns_bind (getUsable_spec ?_)
  rintro ⟨usable, m'⟩ later hquiet
  refine Learning.returns_pure (h _ m' later hquiet ⟨usable.offers, fun c hc => ?_⟩)
  refine mem_pushFallbacks (fun _ hoffer => hoffer) ?_ hc
  intro c' hc'
  split at hc'
  · cases hc'
  · rw [List.mem_singleton.mp hc']
    exact .main

theorem serveSticky_spec {past : Past r} {sessionHash : String} {m before later : Moment}
    {roster : List (StickyRouteCandidate r)} {candidate : StickyRouteCandidate r}
    {offers : List (Offer r.rows.length)}
    (hroster : ∀ c ∈ roster, RosterCandidate dateParse r before later offers c)
    (hcandidate : candidate ∈ roster) (hreplayable : r.replayable = true)
    (hsent : r.dispatch.sent past = []) (hopen : r.dispatch.Open r.replayable past)
    (hspent : r.dispatch.Spent [] past) :
    Sends past (serveSticky dateParse r sessionHash roster candidate m) Whole := by
  unfold serveSticky
  dsimp only
  have hfirst := hroster _ (beforeSend_mem dateParse sessionHash m hcandidate)
  refine Learning.returns_bind (send_spec (by simp [hsent]) hopen ?_)
  intro stream status m' past' hresponded
  have hlive := hspent.responded hresponded
  dsimp only
  split
  · split
    · exact Learning.returns_pure ⟨[], .inl rfl, hlive⟩
    · rename_i replacement hresolve
      obtain ⟨hmem, hexcluded, -⟩ := resolve_sound hresolve
      -- the account just tried is excluded, so the second send goes elsewhere
      have hfresh : replacement.account ∉ r.dispatch.sent past' := by
        rw [hresponded.sent, hsent, List.nil_append, List.mem_singleton]
        intro hsame
        apply hexcluded
        rw [List.mem_singleton, ← (hroster _ hmem).accountId, hsame, hfirst.accountId]
      refine Learning.returns_bind (send_spec hfresh
        (hopen.of_responded hreplayable hresponded) ?_)
      intro stream' status' m'' past'' hresponded'
      refine Learning.returns_bind (cancel_spec ?_)
      intro last hcancelled
      exact Learning.returns_pure ⟨[], .inl rfl, hlive.replaced hresponded' hcancelled⟩
  · exact Learning.returns_pure ⟨[], .inl rfl, hlive⟩

variable (dateParse r) in
theorem serveLegacy_spec (m : Moment) : Sends [] (serveLegacy dateParse r m) Whole := by
  unfold serveLegacy
  cases hsession : r.stickySession with
  | none => exact serveAdmitted_spec rfl Dispatch.Open.nil Dispatch.Spent.nil
  | some sessionHash =>
      have hreplayable : r.replayable = true := by
        unfold RequestContext.stickySession at hsession
        split at hsession
        · rename_i hsticky
          exact (Bool.and_eq_true_iff.mp hsticky).2
        · cases hsession
      refine Learning.returns_bind (buildStickyRouteRoster_spec ?_)
      rintro roster m' later hquiet ⟨offers, hroster⟩
      have hopen : r.dispatch.Open r.replayable later := Dispatch.Open.nil.of_quiet hquiet
      have hspent : r.dispatch.Spent [] later := Dispatch.Spent.nil.of_quiet hquiet
      dsimp only
      split
      · rename_i candidate hresolve
        exact serveSticky_spec hroster (resolve_sound hresolve).1 hreplayable hquiet.sent hopen
          hspent
      · exact serveAdmitted_spec hquiet.sent hopen hspent

/-! ## The discipline -/

/-- Every body a send obtains is the provider's. -/
theorem obtained_wire {trace : Past r} {body : Body} (h : body ∈ r.dispatch.obtained trace) :
    ∃ stream, body = .wire stream := by
  obtain ⟨⟨o, answer⟩, -, hbody⟩ := List.mem_filterMap.mp h
  cases o with
  | sendWithAccessToken account access =>
      obtain ⟨answer, m⟩ := answer
      cases answer with
      | response stream status => exact ⟨stream, (Option.some.inj hbody).symm⟩
      | threw aborted => cases hbody
  | getUsableFallbackAccounts => cases hbody
  | cancel body => cases hbody
  | poolPlaceholderWithoutMain => cases hbody

/-- One request sends to no account twice, sends nothing after a send that threw
and at most once what cannot be replayed; and of the responses it obtained it
returns the one whose body it has not cancelled. -/
theorem legacy_send_discipline (dateParse : String → Option ℚ) (r : RequestContext) (m : Moment)
    {trace : Past r} {q : Prog (sig r.rows.length) (Except Failure Response)}
    (hmakes : (serveLegacy dateParse r m).run.Makes trace q) :
    (r.dispatch.sent trace).Nodup ∧
      (∀ before x after, trace = before ++ x :: after → r.dispatch.threw before = true →
        r.dispatch.target x.1 = none) ∧
      (r.replayable = false → (r.dispatch.sent trace).length ≤ 1) ∧
      ∀ response, q = .ret (.ok response) →
        (∀ body ∈ r.dispatch.obtained trace, body ≠ response.body →
          body ∈ r.dispatch.cancelled trace) ∧
        ((r.dispatch.obtained trace).Nodup → response.body ∉ r.dispatch.cancelled trace) := by
  have hspec := serveLegacy_spec dateParse r m
  have hdiscipline := Dispatch.disciplined_of_justified hspec hmakes Dispatch.Disciplined.nil
  refine ⟨hdiscipline.once, hdiscipline.quiet, hdiscipline.single, ?_⟩
  rintro response rfl
  obtain ⟨made, hmade, hlive⟩ : Whole response trace := by
    have hend := Learning.justified_makes hspec hmakes
    rw [Learning.learnAll_history] at hend
    exact hend response rfl
  refine ⟨fun body hbody hne => hlive.others hbody hne, fun hnodup => hlive.whole ?_⟩
  -- a response made here has a body no send obtains
  rcases hmade with rfl | rfl | rfl
  · exact hnodup
  · refine List.nodup_cons.mpr ⟨fun hmem => ?_, hnodup⟩
    obtain ⟨stream, hstream⟩ := obtained_wire hmem
    cases hstream
  · refine List.nodup_cons.mpr ⟨fun hmem => ?_, hnodup⟩
    obtain ⟨stream, hstream⟩ := obtained_wire hmem
    cases hstream

instance (n : Nat) : DecidableEq (sig n).Call := inferInstanceAs (DecidableEq (Call n))

/-- Main answers 429 and the one fallback 200. -/
def fallbackRequest : RequestContext where
  mode := .mainFirst
  replayable := true
  sessionHash := none
  requestBytes := 0
  reqStorage := some { accounts := [⟨"work", true⟩] }
  mainInPool := false
  mainUnavailable := false
  primaryAccess := "main-token"
  mainAccountIdentity := none
  sidebarSnapshot := { state := {}, readAt := 0, started := none }

def idleMoment : Moment where
  now := 0
  quotas := {}
  overlay := .empty

def fallbackTrace : Past fallbackRequest :=
  [⟨.sendWithAccessToken .main "main-token", (.response 0 429, idleMoment)⟩,
    ⟨.getUsableFallbackAccounts,
      (⟨[⟨(0 : Fin 1), some "work-token", none⟩], by decide⟩, idleMoment)⟩,
    ⟨.sendWithAccessToken (.row (0 : Fin 1)) "work-token", (.response 1 200, idleMoment)⟩,
    ⟨.cancel (.wire 0), ()⟩]

theorem legacy_send_discipline_fallback :
    fallbackRequest.dispatch.sent fallbackTrace = [.main, .row (0 : Fin 1)] ∧
      (fallbackRequest.dispatch.sent fallbackTrace).Nodup ∧
      Body.wire 1 ∉ fallbackRequest.dispatch.cancelled fallbackTrace := by
  have hmakes : (serveLegacy (fun _ => none) fallbackRequest idleMoment).run.Makes fallbackTrace
      (.ret (.ok ⟨.wire 1, 200⟩)) := Prog.makes_of_follow rfl
  have hdiscipline := legacy_send_discipline (fun _ => none) fallbackRequest idleMoment hmakes
  exact ⟨rfl, hdiscipline.1, (hdiscipline.2.2.2 ⟨.wire 1, 200⟩ rfl).2 (by decide)⟩

end Request.Legacy
