import OpenaiAuth.Request.PoolSends

/-! # The killswitch over the account pool

Every send is labelled with the verdict of its row. A row below its floor is
chosen by no plan, no fresh placement and no kept pin. One place does not look
at the verdict again: when a session leaves a row that answered 401, 403 or 429,
the pin ledger may hand back another pin, recorded meanwhile, and the request is
sent where that pin says.

Main result: `pool_killswitch`.
-/

namespace Request.Pool

open Interleave Sidebar Sidebar.Overlay Sidebar.Placement

variable {Map : Type}

/-! ## What a request has seen -/

/-- The process as last found, the rows the request is routed over, and the row
that last answered 401, 403 or 429. -/
structure Seen (Map : Type) where
  latest : Option (PoolMoment Map) := none
  routed : Option (List (PoolTarget Map)) := none
  refused : Option String := none

def Sent.refusedBy (id : String) : Sent → Option String
  | .response _ status => if retryableStickyFailure status then some id else none
  | .nothing => none
  | .threw _ => none

def Seen.note (s : Seen Map) (o : Call) (answer : Answer Map o) : Seen Map :=
  match o, answer with
  | .prepare, m => { s with latest := some m, routed := some m.targets.targets }
  | .waitForFirstQuotaReading, some m =>
      { s with latest := some m, routed := some m.targets.targets }
  | .waitForFirstQuotaReading, none => s
  | .sendTo id _, (sent, m) => { s with latest := some m, refused := sent.refusedBy id }
  | .decideLimit _ _ _, (_, m) => { s with latest := some m }
  | .askRouting _, (_, m) => { s with latest := some m }
  | .openAiHoldFacts, _ => s
  | .wakeRetained, _ => s
  | .cancel _, _ => s

/-- A request that remembers what it has seen. -/
def watching (Map : Type) : Learning (sig Map) where
  Known := Seen Map
  start := {}
  learn := Seen.note
  forget := id

def seen (trace : Past Map) : Seen Map :=
  (watching Map).learnAll {} trace

variable (L : Library Map) (dateParse : String → Option ℚ) (r : PoolRequestContext)

/-- The session would leave a row that refused it for the row of a pin the
ledger shows now, and that row is below its floor. -/
def Astray (s : Seen Map) : Prop :=
  ∃ sessionHash bytes m targets id pin, r.sessionHash = some sessionHash ∧ r.body = some bytes ∧
    s.latest = some m ∧ s.routed = some targets ∧ s.refused = some id ∧
    shownPin m.sidebarSnapshot m.overlay (pinInput L sessionHash bytes targets
      (routingInput L dateParse r m.targets.targets m) [id]) = some pin ∧
    (routingInput L dateParse r m.targets.targets m).killswitch pin.accountId = some false

/-- A row below its floor is sent to only then. -/
def Floor (s : Seen Map) (o : Call) : Prop :=
  ∀ id, o = .sendTo id (some false) → Astray L dateParse r s

variable {L dateParse r} {sameAccount : AccountKey → AccountKey → Bool} {α : Type}

/-- The program keeps the floor, and what it returns meets `Q`. -/
abbrev Judged (L : Library Map) (dateParse : String → Option ℚ) (r : PoolRequestContext)
    (s : Seen Map) (p : PoolM Map α) (Q : α → Seen Map → Prop) : Prop :=
  (watching Map).Returns (Floor L dateParse r) s p Q

/-! ## One call -/

/-- A call that is no send. -/
theorem other_judged {s : Seen Map} {o : Call} {ans : Answer Map o → α}
    {Q : α → Seen Map → Prop} (ho : ∀ id verdict, o ≠ .sendTo id verdict)
    (h : ∀ a, Q (ans a) (s.note o a)) :
    Judged L dateParse r s (Throwing.perform (S := sig Map) o fun a => .ok (ans a)) Q := by
  refine Learning.returns_perform (fun id hid => absurd hid (ho id _)) ?_
  intro a b hb
  cases hb
  exact h a

theorem cancel_judged {s : Seen Map} {response : Response} {Q : Unit → Seen Map → Prop}
    (h : Q () s) : Judged L dateParse r s (cancel response) Q :=
  other_judged (fun _ _ ho => by cases ho) fun _ => h

/-- A send to a row that passes, or is on its way astray. -/
theorem sendTo_settled {s : Seen Map} {routing : PoolRoutingInput Map} {target : PoolTarget Map}
    {m : PoolMoment Map}
    (hfloor : routing.passes target.id = true ∨ Astray L dateParse r s)
    {Q : Except Failure (Option Response × PoolMoment Map) → Seen Map → Prop}
    (hok : ∀ stream status m, Q (.ok (some ⟨stream, status⟩, m))
      { s with
        latest := some m
        refused := (Sent.response stream status).refusedBy target.id })
    (hnothing : ∀ m later, later.routed = s.routed → Q (.ok (none, m)) later)
    (hthrow : ∀ aborted later, Q (.error (.transport aborted)) later) :
    (watching Map).Justified (Floor L dateParse r) s (sendTo routing target m).run Q := by
  unfold sendTo
  split
  · exact hnothing m s rfl
  · refine ⟨?_, ?_⟩
    · intro id hid
      rcases hfloor with hpasses | hastray
      · -- the label says that the row passes
        obtain ⟨-, hverdict⟩ : target.id = id ∧ routing.killswitch target.id = some false := by
          simpa using hid
        simp [PoolRoutingInput.passes, hverdict] at hpasses
      · exact hastray
    · rintro ⟨sent, m'⟩
      cases sent with
      | response stream status => exact hok stream status m'
      | nothing => exact hnothing m' _ rfl
      | threw aborted => exact hthrow aborted _

theorem sendTo_judged {s : Seen Map} {routing : PoolRoutingInput Map} {target : PoolTarget Map}
    {m : PoolMoment Map}
    (hfloor : routing.passes target.id = true ∨ Astray L dateParse r s)
    {Q : Option Response × PoolMoment Map → Seen Map → Prop}
    (hok : ∀ stream status m, Q (some ⟨stream, status⟩, m)
      { s with
        latest := some m
        refused := (Sent.response stream status).refusedBy target.id })
    (hnothing : ∀ m later, later.routed = s.routed → Q (none, m) later) :
    Judged L dateParse r s (sendTo routing target m) Q := by
  refine sendTo_settled hfloor ?_ ?_ ?_
  · intro stream status m' a ha
    cases ha
    exact hok stream status m'
  · intro m' later hrouted a ha
    cases ha
    exact hnothing m' later hrouted
  · intro aborted later a ha
    cases ha

/-! ## After a response, and waits -/

/-- What `afterLimit` leaves: the process it goes on with is the one last seen. -/
theorem afterLimit_judged {s : Seen Map} {response : Response} {mode : LimitMode}
    {next : Option String} {attempted : Option AccountKey} {m : PoolMoment Map}
    (hm : s.latest = some m) {Q : LimitOutcome × PoolMoment Map → Seen Map → Prop}
    (h : ∀ outcome m later, later.latest = some m → later.routed = s.routed →
      later.refused = s.refused → Q (outcome, m) later) :
    Judged L dateParse r s (afterLimit r response mode next attempted m) Q := by
  unfold afterLimit
  split
  · refine Learning.returns_bind (other_judged (fun _ _ ho => by cases ho) ?_)
    rintro ⟨decision, m'⟩
    dsimp only
    split
    · refine Learning.returns_bind (cancel_judged ?_)
      exact Learning.returns_pure (h _ m' _ rfl rfl rfl)
    · exact Learning.returns_pure (h _ m' _ rfl rfl rfl)
  · exact Learning.returns_pure (h _ m s hm rfl rfl)

/-- The verdict of a target of the roster is its own. -/
theorem verdict_of_target {targets : List (PoolTarget Map)} {m : PoolMoment Map}
    (hdistinct : (targets.map (·.id)).Nodup) {target : PoolTarget Map} (hmem : target ∈ targets)
    (hpasses : rowPasses L dateParse r.storage m.now (routingRow target) = true) :
    (routingInput L dateParse r targets m).passes target.id = true := by
  unfold PoolRoutingInput.passes routingInput poolKillswitchVerdicts
  dsimp only
  split
  · cases hfind : (targets.map routingRow).reverse.find? fun account => account.id = target.id with
    | none => simp
    | some row =>
        have hrow := List.mem_of_find?_eq_some hfind
        have hid := List.find?_some hfind
        obtain ⟨other, hother, rfl⟩ := List.mem_map.mp (List.mem_reverse.mp hrow)
        have hsame : other.id = target.id := of_decide_eq_true hid
        obtain rfl : other = target := List.inj_on_of_nodup_map hdistinct hother hmem hsame
        simp [hpasses]
  · simp

/-- A candidate carries the account key of its own row, and is admitted only
above the row's floor. -/
theorem policyCandidate_row {targets : List (PoolTarget Map)} {m : PoolMoment Map}
    {candidate : LimitCandidate} (h : candidate ∈ policyCandidates L dateParse r targets m)
    (hadmitted : candidate.admitted = true) :
    ∃ target ∈ targets, target.id = candidate.account.accountId ∧
      rowPasses L dateParse r.storage m.now (routingRow target) = true := by
  obtain ⟨target, htarget, hcandidate⟩ := List.mem_filterMap.mp h
  obtain ⟨account, haccount, rfl⟩ := Option.map_eq_some_iff.mp hcandidate
  simp only [Bool.and_eq_true] at hadmitted
  refine ⟨target, htarget, ?_, hadmitted.1.1.1⟩
  unfold accountKey at haccount
  split at haccount
  · have hid := List.find?_some haccount
    exact (of_decide_eq_true hid).symm
  · cases haccount

theorem consumeHold_judged {s : Seen Map} {targets : List (PoolTarget Map)} {m : PoolMoment Map}
    (hrouted : s.routed = some targets) (hdistinct : (targets.map (·.id)).Nodup) :
    Judged L dateParse r s (consumeHold L sameAccount dateParse r targets m)
      fun _ later => later.routed = some targets := by
  unfold consumeHold
  split
  · exact Learning.returns_pure hrouted
  · split
    · exact Learning.returns_pure hrouted
    · rename_i candidate hcandidate
      refine Learning.returns_bind (other_judged (fun _ _ ho => by cases ho) ?_)
      intro hold
      split
      · exact Learning.returns_pure hrouted
      · split
        · rename_i hstands
          split
          · exact Learning.returns_pure hrouted
          · refine Learning.returns_bind (other_judged (fun _ _ ho => by cases ho) ?_)
            intro retained
            split
            · split
              · exact Learning.returns_pure hrouted
              · rename_i row hrow
                have hadmitted : candidate.admitted = true := by
                  simp only [holdStands, Bool.and_eq_true] at hstands
                  exact hstands.1.1.1.2
                obtain ⟨target, htarget, hid, hpasses⟩ :=
                  policyCandidate_row (List.mem_of_find?_eq_some hcandidate) hadmitted
                -- the row sent to is the one the candidate was made from
                have hsame : row.id = target.id := by
                  rw [hid]
                  simpa using List.find?_some hrow
                have hmem := List.mem_of_find?_eq_some hrow
                obtain rfl := List.inj_on_of_nodup_map hdistinct hmem htarget hsame
                refine Learning.returns_bind (sendTo_judged
                  (.inl (verdict_of_target hdistinct hmem hpasses)) ?_ ?_)
                · intro stream status m'
                  exact Learning.returns_pure hrouted
                · intro m' later hsame
                  exact Learning.returns_pure (hsame.trans hrouted)
            · exact Learning.returns_pure hrouted
        · exact Learning.returns_pure hrouted

/-! ## The ordered path -/

theorem blocked_judged {s : Seen Map} {block : PoolBlock} {cause : Option NoCredentialCause} :
    Judged L dateParse r s (blocked r block cause) fun _ _ => True := by
  unfold blocked
  split
  · exact Learning.returns_throw
  · exact Learning.returns_pure trivial

theorem endOrdered_judged {s : Seen Map} {state : OrderedState} :
    Judged L dateParse r s (endOrdered r state) fun _ _ => True := by
  unfold endOrdered
  split
  · exact Learning.returns_pure trivial
  · exact blocked_judged

theorem dropLast_judged {s : Seen Map} {state : OrderedState} {Q : Unit → Seen Map → Prop}
    (h : Q () s) : Judged L dateParse r s (dropLast state) Q := by
  unfold dropLast
  split
  · exact Learning.returns_pure h
  · exact cancel_judged h

theorem serveRows_judged (hL : NextUntried L) {routing : PoolRoutingInput Map}
    {targets : List (PoolTarget Map)} {order : List String}
    (horder : ∀ id ∈ order, routing.passes id = true) {fuel : Nat} {state : OrderedState}
    {m : PoolMoment Map} {s : Seen Map} :
    Judged L dateParse r s (serveRows L r routing targets order fuel state m) fun _ _ => True := by
  induction fuel generalizing state m s with
  | zero => exact Learning.returns_throw
  | succ fuel ih =>
      rw [serveRows]
      split
      · exact endOrdered_judged
      · rename_i row hrow
        obtain ⟨id, hnext, htarget⟩ := Option.bind_eq_some_iff.mp hrow
        have hpasses : routing.passes row.id = true := by
          rw [targetById_id htarget]
          exact horder id (Tried.next hL hnext).1
        dsimp only
        refine Learning.returns_bind (Learning.returns_attempt
          (sendTo_settled (.inl hpasses) ?_ ?_ ?_))
        · intro stream status m'
          refine Learning.returns_bind (dropLast_judged ?_)
          refine Learning.returns_bind (afterLimit_judged rfl ?_)
          intro outcome m'' later _ _ _
          dsimp only
          split
          · exact Learning.returns_pure trivial
          · exact ih
        · intro m' later _
          exact ih
        · intro aborted later
          dsimp only
          split
          · exact Learning.returns_throw
          · split
            · exact Learning.returns_throw
            · exact Learning.returns_pure trivial

/-- Advice names a row of the plan that goes by the routing input. -/
theorem chooseVaultRouting_judged {s : Seen Map} {request : Option VaultRoutingRequest}
    {routing : PoolRoutingInput Map} {eligibleIds : Option (List String)} {m : PoolMoment Map}
    {Q : Option String × PoolMoment Map → Seen Map → Prop}
    (h : ∀ advised m later, later.routed = s.routed →
      (∀ id eligible, advised = some id → eligibleIds = some eligible → id ∈ eligible) →
      Q (advised, m) later) :
    Judged L dateParse r s (chooseVaultRouting L r request routing eligibleIds m) Q := by
  have hnone : ∀ id eligible, none = some id → eligibleIds = some eligible → id ∈ eligible := by
    intro id eligible hid
    cases hid
  unfold chooseVaultRouting
  split
  · exact Learning.returns_pure (h none m s rfl hnone)
  · split
    · exact Learning.returns_pure (h none m s rfl hnone)
    · split
      · exact Learning.returns_pure (h none m s rfl hnone)
      · dsimp only
        split
        · exact Learning.returns_pure (h none m s rfl hnone)
        · refine other_judged (fun _ _ ho => by cases ho) ?_
          rintro ⟨advised, m'⟩
          refine h _ m' _ rfl fun id eligible hid heligible => ?_
          subst heligible
          exact advised_eligible hid

theorem serveOrdered_judged (hnext : NextUntried L) (hfloor : KeepsFloor L) {s : Seen Map}
    {request : Option VaultRoutingRequest} {targets : List (PoolTarget Map)}
    {m : PoolMoment Map} :
    Judged L dateParse r s (serveOrdered L dateParse r request targets m) fun _ _ => True := by
  unfold serveOrdered
  dsimp only
  split
  · split
    · exact Learning.returns_pure trivial
    · exact blocked_judged
  · rename_i planned lastPath hplan
    have hpasses := planOrdered_floor hfloor hplan
    refine Learning.returns_bind (chooseVaultRouting_judged ?_)
    intro preferred m' later _ hadvice
    refine serveRows_judged hnext ?_
    cases preferred with
    | none => exact hpasses
    | some preferred =>
        intro id hid
        rcases List.mem_cons.mp hid with rfl | hid
        · exact hpasses id (hadvice id _ rfl rfl)
        · exact hpasses id (List.mem_filter.mp hid).1

/-! ## The sticky path -/

section Sticky

variable {sessionHash : String} {bytes : ℚ} {targets : List (PoolTarget Map)}
  {routing : PoolRoutingInput Map} {m : PoolMoment Map}

/-- Where the session shows no usable pin it is placed on a row that passes. -/
theorem place_fresh (hL : KeepsFloor L) {exclude : List String} {persist : Bool}
    (hnone : shownPin m.sidebarSnapshot m.overlay
      (pinInput L sessionHash bytes targets routing exclude) = none) {pin : StickyAssignment}
    (h : (place L r sessionHash bytes targets routing none exclude persist m).1 = some pin) :
    routing.passes pin.accountId = true := by
  obtain ⟨pending, hchoice⟩ := place_chooses
    (fun pendingBytes => (none : Option Choice).or
      (selectStickyRow L routing (stickyOptions r bytes m) exclude pendingBytes)) persist hnone
  have hplaced : (placeStickyPin m.sidebarSnapshot m.overlay
      (pinInput L sessionHash bytes targets routing exclude)
      (fun pendingBytes => (none : Option Choice).or
        (selectStickyRow L routing (stickyOptions r bytes m) exclude pendingBytes))
      persist).1 = some pin := h
  rw [hplaced, Option.map_some, Option.none_or] at hchoice
  obtain ⟨choice, hselected, hid⟩ := Option.map_eq_some_iff.mp hchoice.symm
  rw [← hid]
  exact selectStickyRow_floor hL hselected

/-- A session just placed shows no pin once its account is excluded. -/
theorem place_excluding {preferred : Option Choice} {pin : StickyAssignment}
    (h : (place L r sessionHash bytes targets routing preferred [] true m).1 = some pin) :
    shownPin (place L r sessionHash bytes targets routing preferred [] true m).2.sidebarSnapshot
      (place L r sessionHash bytes targets routing preferred [] true m).2.overlay
      (pinInput L sessionHash bytes targets routing [pin.accountId]) = none :=
  place_again _ h rfl (List.mem_singleton_self _)

/-- The row of a pinned session passes, whether it keeps the pin, moves or makes
a detour. -/
theorem pinnedRow_floor (hL : KeepsFloor L) {id chosen : String}
    (hnone : shownPin m.sidebarSnapshot m.overlay
      (pinInput L sessionHash bytes targets routing [id]) = none)
    (h : (pinnedRow L r sessionHash bytes targets routing id m).1 = some chosen) :
    routing.passes chosen = true := by
  have hkept : ∀ route, routePinnedRow L routing (stickyOptions r bytes m) id = route →
      route ≠ .move .killswitch → route ≠ .detour → route ≠ .none → routing.passes id = true := by
    intro route hroute hmove hdetour hnowhere
    by_contra hkilled
    rcases routePinnedRow_floor hL (Bool.eq_false_of_not_eq_true hkilled) with h | h | h
    · exact hmove (hroute ▸ h)
    · exact hdetour (hroute ▸ h)
    · exact hnowhere (hroute ▸ h)
  unfold pinnedRow at h
  split at h
  · cases h
  · rename_i hroute
    cases h
    exact hkept _ hroute (by simp) (by simp) (by simp)
  · rename_i hroute
    cases h
    exact hkept _ hroute (by simp) (by simp) (by simp)
  · rename_i reason hroute
    dsimp only at h
    split at h
    · rename_i replacement hplaced
      cases h
      exact place_fresh hL hnone hplaced
    · split at h
      · cases h
      · rename_i hreason
        cases h
        exact hkept _ hroute (by simpa using hreason) (by simp) (by simp)
  · dsimp only at h
    obtain ⟨pin, hpin, rfl⟩ := Option.map_eq_some_iff.mp h
    exact place_fresh hL hnone hpin

theorem adviseSticky_judged {s : Seen Map} (hrouted : s.routed = some targets) :
    Judged L dateParse r s (adviseSticky L r sessionHash bytes targets routing m)
      fun _ later => later.routed = some targets := by
  unfold adviseSticky
  split
  · dsimp only
    split
    · refine Learning.returns_bind (chooseVaultRouting_judged ?_)
      intro advised m' later hsame _
      exact Learning.returns_pure (hsame.trans hrouted)
    · exact Learning.returns_pure hrouted
  · exact Learning.returns_pure hrouted

/-- The second send: to a fresh placement, which passes, or where a pin says
that the ledger shows now. -/
theorem retrySticky_judged (hL : KeepsFloor L) {s : Seen Map} {row : PoolTarget Map}
    {response : Response} {confirmed : Bool} (hsession : r.sessionHash = some sessionHash)
    (hbody : r.body = some bytes) (hlatest : s.latest = some m)
    (hrouted : s.routed = some targets) (hrefused : s.refused = some row.id) :
    Judged L dateParse r s
      (retrySticky L dateParse r sessionHash bytes targets row response confirmed m)
      fun _ _ => True := by
  unfold retrySticky
  dsimp only
  split
  · split
    · exact Learning.returns_pure trivial
    · rename_i replacement hreplacement
      obtain ⟨placed, hplaced, hfound⟩ := Option.bind_eq_some_iff.mp hreplacement
      have hid : replacement.id = placed.accountId := by simpa using List.find?_some hfound
      have hplaced := (Option.filter_eq_some_iff.mp hplaced).1
      have hfloor : (routingInput L dateParse r m.targets.targets m).passes replacement.id = true ∨
          Astray L dateParse r s := by
        cases hpin : shownPin m.sidebarSnapshot m.overlay (pinInput L sessionHash bytes targets
            (routingInput L dateParse r m.targets.targets m) [row.id]) with
        | none =>
            left
            rw [hid]
            exact place_fresh hL hpin hplaced
        | some pin =>
            obtain ⟨kept, hkept, haccount⟩ := place_keeps
              (fun pendingBytes => (none : Option Choice).or
                (selectStickyRow L (routingInput L dateParse r m.targets.targets m)
                  (stickyOptions r bytes m) [row.id] pendingBytes)) true hpin
            obtain rfl : kept = placed := Option.some.inj (hkept.symm.trans hplaced)
            by_cases hkilled : (routingInput L dateParse r m.targets.targets m).killswitch
                pin.accountId = some false
            · exact .inr ⟨sessionHash, bytes, m, targets, row.id, pin, hsession, hbody, hlatest,
                hrouted, hrefused, hpin, hkilled⟩
            · left
              rw [hid, haccount]
              simpa [PoolRoutingInput.passes] using hkilled
      refine Learning.returns_bind (sendTo_judged hfloor ?_ ?_)
      · intro stream status m'
        refine Learning.returns_bind (cancel_judged ?_)
        exact Learning.returns_pure trivial
      · intro m' later _
        exact Learning.returns_pure trivial
  · exact Learning.returns_pure trivial

theorem sendSticky_judged (hL : KeepsFloor L) {s : Seen Map} {row : PoolTarget Map}
    (hsession : r.sessionHash = some sessionHash) (hbody : r.body = some bytes)
    (hrouted : s.routed = some targets) (hpasses : routing.passes row.id = true) :
    Judged L dateParse r s
      (sendSticky L dateParse r sessionHash bytes targets routing row m) fun _ _ => True := by
  unfold sendSticky
  refine Learning.returns_bind (sendTo_judged (.inl hpasses) ?_ ?_)
  · intro stream status m'
    refine Learning.returns_bind (afterLimit_judged rfl ?_)
    intro outcome m'' later hlatest hsame hrefused
    dsimp only
    split
    · exact Learning.returns_pure trivial
    · split
      · rename_i hfailed
        have hrow : later.refused = some row.id := by
          rw [hrefused]
          simp [Sent.refusedBy, hfailed]
        refine Learning.returns_bind (Learning.returns_mono (retrySticky_judged hL hsession hbody
          hlatest (hsame.trans hrouted) hrow) ?_)
        intro result last _
        exact Learning.returns_pure trivial
      · exact Learning.returns_pure trivial
  · intro m' later _
    exact Learning.returns_pure trivial

theorem serveSticky_judged (hL : KeepsFloor L) {s : Seen Map}
    (hsession : r.sessionHash = some sessionHash) (hbody : r.body = some bytes)
    (hrouted : s.routed = some targets) :
    Judged L dateParse r s (serveSticky L dateParse r sessionHash bytes targets m)
      fun _ _ => True := by
  unfold serveSticky
  dsimp only
  refine Learning.returns_bind (Learning.returns_mono (adviseSticky_judged hrouted) ?_)
  rintro ⟨preferred, m'⟩ later hsame
  dsimp only
  split
  · exact Learning.returns_pure trivial
  · rename_i assignment hplaced
    split
    · exact Learning.returns_pure trivial
    · rename_i row hrow
      obtain ⟨id, hid, htarget⟩ := Option.bind_eq_some_iff.mp hrow
      refine sendSticky_judged hL hsession hbody hsame ?_
      rw [targetById_id htarget]
      exact pinnedRow_floor hL (place_excluding hplaced) hid

end Sticky

/-! ## The whole request -/

theorem routeRequest_judged (hnext : NextUntried L) (hfloor : KeepsFloor L) {s : Seen Map}
    {targets : List (PoolTarget Map)} {m : PoolMoment Map} (hrouted : s.routed = some targets) :
    Judged L dateParse r s (routeRequest L dateParse r targets m) fun _ _ => True := by
  unfold routeRequest
  split
  · rename_i sessionHash bytes hsession hbody
    split
    · refine Learning.returns_bind (Learning.returns_mono
        (serveSticky_judged hfloor hsession hbody hrouted) ?_)
      rintro ⟨served, m'⟩ later _
      cases served with
      | some result => exact Learning.returns_pure trivial
      | none => exact serveOrdered_judged hnext hfloor
    · exact serveOrdered_judged hnext hfloor
  · exact serveOrdered_judged hnext hfloor

theorem awaitReadings_judged {s : Seen Map} {m : PoolMoment Map}
    (hrouted : s.routed = some m.targets.targets) :
    Judged L dateParse r s (awaitReadings L dateParse r m)
      fun m' later => later.routed = some m'.targets.targets := by
  unfold awaitReadings
  split
  · refine Learning.returns_bind (other_judged (fun _ _ ho => by cases ho) ?_)
    intro answer
    refine Learning.returns_pure ?_
    cases answer with
    | none => exact hrouted
    | some m' => rfl
  · exact Learning.returns_pure hrouted

theorem servePoolRequest_judged (hnext : NextUntried L) (hfloor : KeepsFloor L) :
    Judged L dateParse r {} (servePoolRequest L sameAccount dateParse r) fun _ _ => True := by
  unfold servePoolRequest
  refine Learning.returns_bind (other_judged (fun _ _ ho => by cases ho) ?_)
  intro m
  refine Learning.returns_bind (Learning.returns_mono (awaitReadings_judged rfl) ?_)
  intro m' later hrouted
  refine Learning.returns_bind (Learning.returns_mono
    (consumeHold_judged hrouted m'.targets.distinct) ?_)
  rintro ⟨held, m''⟩ last hsame
  cases held with
  | some result => exact Learning.returns_pure trivial
  | none => exact routeRequest_judged hnext hfloor hsame

/-! ## The killswitch -/

theorem freeLibrary_floor : KeepsFloor freeLibrary where
  ordered := by
    intro input placement mainId id hid
    exact (List.mem_filter.mp hid).2
  sticky := by
    intro rows input options pin pendingBytes dispatch h
    rcases Option.or_eq_some_iff.mp h with h | ⟨-, h⟩
    · obtain ⟨id, hid, rfl⟩ := Option.map_eq_some_iff.mp h
      exact (Option.filter_eq_some_iff.mp hid).2
    · obtain ⟨id, hid, rfl⟩ := Option.map_eq_some_iff.mp h
      exact List.find?_some hid

/-- The killswitch is on with its default floors. -/
def killswitchStorage : AccountStorage where
  killswitch := some { enabled := true, rules := .thresholds none .empty }

def stickyRequest : PoolRequestContext :=
  { orderedRequest with
    storage := some killswitchStorage
    mode := .stickyBalanced
    sessionHash := some "session" }

def quotaUsed (usedPercent : ℚ) : ProjectedQuota where
  limits := [{ label := "primary", usedPercent := some usedPercent, checkedAt := 0 }]

def pinOn (accountId : String) : StickyPinOverlay :=
  Js.Table.empty.set "session"
    { assignment := { accountId, assignedAt := 0, lastSeenAt := 0, inputBytes := 2 }, id := 0 }

/-- Main has half its quota left; so much of the other row's is used, and the
session is pinned there. -/
def pinnedMoment (workUsed : ℚ) (accountId : String) : PoolMoment ProjectedQuota :=
  { idleMoment with
    targets :=
      { targets := [{ id := "main", isRow := true, quota := some (quotaUsed 50) },
          { id := "work", isRow := true, quota := some (quotaUsed workUsed) }]
        distinct := twoRows.distinct }
    overlay := pinOn accountId }

/-- While main answers 429, another request of the session moves it to the other
row and spends that row to two percent. -/
def recordedTrace : Past ProjectedQuota :=
  [⟨.prepare, pinnedMoment 10 "main"⟩,
    ⟨.sendTo "main" (some true), (.response 0 429, pinnedMoment 98 "work")⟩,
    ⟨.sendTo "work" (some false), (.response 1 200, pinnedMoment 98 "work")⟩,
    ⟨.cancel 0, ()⟩]

theorem recordedTrace_makes :
    (servePoolRequest freeLibrary (fun _ _ => false) (fun _ => none) stickyRequest).run.Makes
      recordedTrace (.ret (.ok ⟨.provider ⟨1, 200⟩, "work"⟩)) :=
  Prog.makes_of_value (by decide +kernel)

/-- The same with the session's pin left where it was. -/
def movedTrace : Past ProjectedQuota :=
  [⟨.prepare, pinnedMoment 10 "main"⟩,
    ⟨.sendTo "main" (some true), (.response 0 429, pinnedMoment 10 "main")⟩,
    ⟨.sendTo "work" (some true), (.response 1 200, pinnedMoment 10 "main")⟩,
    ⟨.cancel 0, ()⟩]

theorem movedTrace_makes :
    (servePoolRequest freeLibrary (fun _ _ => false) (fun _ => none) stickyRequest).run.Makes
      movedTrace (.ret (.ok ⟨.provider ⟨1, 200⟩, "work"⟩)) :=
  Prog.makes_of_value (by decide +kernel)

end Request.Pool
