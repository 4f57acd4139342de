import OpenaiAuth.Request.Pool

/-! # What one pooled request sends

A wait, the session's row, its replacement and the ordered rows each keep their
own record of what was tried. What they share is read off the calls, and each
function is described by what it adds to that.

Main result: `pool_send_discipline`.
-/

namespace Request.Pool

open Interleave Sidebar Sidebar.Placement

/-! ## Reading the calls -/

variable {Map : Type}

/-- Sends, and the bodies they obtain. -/
def dispatch (Map : Type) : Dispatch (sig Map) String Nat where
  target := fun o =>
    match o with
    | .sendTo id _ => some id
    | _ => none
  outcome := fun o =>
    match o with
    | .sendTo _ _ => fun r =>
        match r.1 with
        | .response stream _ => .responded stream
        | .nothing => .nothing
        | .threw _ => .threw
    | _ => fun _ => .nothing
  discards := fun o =>
    match o with
    | .cancel stream => some stream
    | _ => none

abbrev Past (Map : Type) : Type := List (Exchange (sig Map))

/-- What the library is relied on for: the next attempt is an id of the order
that was not attempted. -/
def NextUntried (L : Library Map) : Prop :=
  ∀ order attempts statuses id, L.nextOrderedAttempt order attempts statuses = some id →
    id ∈ order ∧ id ∉ attempts.map (·.id)

variable {L : Library Map} {sameAccount : AccountKey → AccountKey → Bool}
  {dateParse : String → Option ℚ} {r : PoolRequestContext} {α : Type}

/-- The program makes only sends that the discipline allows, its loop comes to
an end, and what it returns meets `Q`. -/
abbrev Sends (r : PoolRequestContext) (past : Past Map) (p : PoolM Map α)
    (Q : α → Past Map → Prop) : Prop :=
  (Learning.history (sig Map)).Ends ((dispatch Map).May r.replayable) past p Q
    fun e _ => e ≠ .loopEnds

/-! ## One call -/

/-- A call that neither sends nor cancels. -/
theorem quiet_spec {past : Past Map} {o : Call} {ans : Answer Map o → α}
    {Q : α → Past Map → Prop} (htarget : (dispatch Map).target o = none)
    (hdiscards : (dispatch Map).discards o = none)
    (h : ∀ a later, (dispatch Map).Quiet past later → Q (ans a) later) :
    Sends r past (Throwing.perform (S := sig Map) o fun a => .ok (ans a)) Q := by
  refine Learning.ends_perform (Dispatch.may_of_no_target htarget) ?_ ?_
  · intro a b hb
    cases hb
    exact h a _ (Dispatch.quiet_step htarget hdiscards)
  · intro a e he
    cases he

theorem cancel_spec {past : Past Map} {response : Response} {Q : Unit → Past Map → Prop}
    (h : ∀ later, (dispatch Map).Cancelled past later response.stream → Q () later) :
    Sends r past (cancel response) Q := by
  refine Learning.ends_perform (Dispatch.may_of_no_target rfl) ?_ ?_
  · intro a b _
    exact h _ (Dispatch.cancelled_step rfl rfl)
  · intro a e he
    cases he

/-- An attempt: a response, nothing sent at all, or a throw. -/
theorem sendTo_justified {past : Past Map} {routing : PoolRoutingInput Map}
    {target : PoolTarget Map} {m : PoolMoment Map}
    (hfresh : target.id ∉ (dispatch Map).sent past)
    (hopen : (dispatch Map).Open r.replayable past)
    {Q : Except Failure (Option Response × PoolMoment Map) → Past Map → Prop}
    (hok : ∀ stream status m later, (dispatch Map).Responded past later target.id stream →
      Q (.ok (some ⟨stream, status⟩, m)) later)
    (hnothing : ∀ m later, (dispatch Map).Quiet past later → Q (.ok (none, m)) later)
    (hthrow : ∀ aborted later, (dispatch Map).Fruitless past later target.id →
      Q (.error (.transport aborted)) later) :
    (Learning.history (sig Map)).Justified ((dispatch Map).May r.replayable) past
      (sendTo routing target m).run Q := by
  unfold sendTo
  split
  · exact hnothing m past ⟨rfl, rfl, rfl, rfl⟩
  · refine ⟨hopen.may ?_, ?_⟩
    · intro a ha
      obtain rfl : target.id = a := by simpa [dispatch] using ha
      exact hfresh
    · rintro ⟨answer, m⟩
      cases answer with
      | response stream status => exact hok stream status m _ (Dispatch.responded_step rfl rfl rfl)
      | nothing => exact hnothing m _ (Dispatch.unsent_step rfl rfl)
      | threw aborted => exact hthrow aborted _ (Dispatch.fruitless_step rfl rfl rfl)

theorem sendTo_spec {past : Past Map} {routing : PoolRoutingInput Map}
    {target : PoolTarget Map} {m : PoolMoment Map}
    (hfresh : target.id ∉ (dispatch Map).sent past)
    (hopen : (dispatch Map).Open r.replayable past)
    {Q : Option Response × PoolMoment Map → Past Map → Prop}
    (hok : ∀ stream status m later, (dispatch Map).Responded past later target.id stream →
      Q (some ⟨stream, status⟩, m) later)
    (hnothing : ∀ m later, (dispatch Map).Quiet past later → Q (none, m) later) :
    Sends r past (sendTo routing target m) Q := by
  refine sendTo_justified hfresh hopen ?_ ?_ ?_
  · intro stream status m later h
    refine ⟨?_, ?_⟩
    · intro a ha
      cases ha
      exact hok stream status m later h
    · intro e he
      cases he
  · intro m later h
    refine ⟨?_, ?_⟩
    · intro a ha
      cases ha
      exact hnothing m later h
    · intro e he
      cases he
  · intro aborted later _
    refine ⟨?_, ?_⟩
    · intro a ha
      cases ha
    · intro e he
      cases he
      simp

/-! ## Where a request stands -/

/-- Nothing has been sent yet. -/
structure Unsent (past : Past Map) : Prop where
  sent : (dispatch Map).sent past = []
  quiet : (dispatch Map).threw past = false
  spent : (dispatch Map).Spent [] past

namespace Unsent

variable {past later : Past Map}

theorem nil : Unsent ([] : Past Map) := ⟨rfl, rfl, Dispatch.Spent.nil⟩

theorem of_quiet (h : Unsent past) (hq : (dispatch Map).Quiet past later) : Unsent later where
  sent := hq.sent.trans h.sent
  quiet := hq.threw.trans h.quiet
  spent := h.spent.of_quiet hq

theorem fresh (h : Unsent past) (id : String) : id ∉ (dispatch Map).sent past := by
  simp [h.sent]

theorem isOpen (h : Unsent past) (replayable : Bool) : (dispatch Map).Open replayable past where
  quiet := h.quiet
  first _ := h.sent

end Unsent

/-- A response of the provider handed on is the one that is whole. -/
def Whole (result : PoolRequestResult) (past : Past Map) : Prop :=
  ∀ response, result.reply = .provider response →
    (dispatch Map).Delivered [] past response.stream

theorem Whole.provider {past : Past Map} {response : Response} {servedId : String}
    (h : (dispatch Map).Delivered [] past response.stream) :
    Whole ⟨.provider response, servedId⟩ past := by
  intro other hother
  cases hother
  exact h

/-- A reply made here is no response of the provider. -/
theorem Whole.local {past : Past Map} {reply : Reply} {servedId : String}
    (h : ∀ response, reply ≠ .provider response) : Whole ⟨reply, servedId⟩ past :=
  fun response hresponse => absurd hresponse (h response)

/-- Either the request has been answered, or it is still to be sent. -/
def Served (served : Option PoolRequestResult × PoolMoment Map) (past : Past Map) : Prop :=
  match served.1 with
  | some result => Whole result past
  | none => Unsent past

/-! ## After a response -/

theorem afterLimit_spec {past : Past Map} {response : Response} {mode : LimitMode}
    {next : Option String} {attempted : Option AccountKey} {m : PoolMoment Map}
    {Q : LimitOutcome × PoolMoment Map → Past Map → Prop}
    (hgo : ∀ confirmed m later, (dispatch Map).Quiet past later → Q (⟨false, confirmed⟩, m) later)
    (hhold : ∀ m later, Q (⟨true, true⟩, m) later) :
    Sends r past (afterLimit r response mode next attempted m) Q := by
  unfold afterLimit
  split
  · refine Learning.ends_bind (quiet_spec rfl rfl ?_)
    rintro ⟨decision, m'⟩ later hquiet
    dsimp only
    split
    · refine Learning.ends_bind (cancel_spec ?_)
      intro last _
      exact Learning.ends_pure (hhold m' last)
    · exact Learning.ends_pure (hgo _ m' later hquiet)
  · exact Learning.ends_pure (hgo false m past ⟨rfl, rfl, rfl, rfl⟩)

/-! ## Waits -/

/-- The wait's own send is the first of the request. -/
theorem consumeHold_spec {past : Past Map} {targets : List (PoolTarget Map)} {m : PoolMoment Map}
    (h : Unsent past) :
    Sends r past (consumeHold L sameAccount dateParse r targets m) Served := by
  unfold consumeHold
  split
  · exact Learning.ends_pure h
  · split
    · exact Learning.ends_pure h
    · refine Learning.ends_bind (quiet_spec rfl rfl ?_)
      intro hold later hquiet
      have hunsent := h.of_quiet hquiet
      split
      · exact Learning.ends_pure hunsent
      · split
        · split
          · exact Learning.ends_pure (Whole.local fun _ hreply => by cases hreply)
          · refine Learning.ends_bind (quiet_spec rfl rfl ?_)
            intro retained last hquiet'
            have hunsent' := hunsent.of_quiet hquiet'
            split
            · split
              · exact Learning.ends_pure hunsent'
              · refine Learning.ends_bind (sendTo_spec (hunsent'.fresh _) (hunsent'.isOpen _) ?_ ?_)
                · intro stream status m' final hresponded
                  exact Learning.ends_pure (Whole.provider (hunsent'.spent.responded hresponded))
                · intro m' final hquiet''
                  exact Learning.ends_pure (hunsent'.of_quiet hquiet'')
            · exact Learning.ends_pure hunsent'
        · exact Learning.ends_pure hunsent

/-! ## The ordered path -/

/-- What the ordered loop has done so far. -/
structure Tried (order : List String) (s : OrderedState) (past : Past Map) : Prop where
  ordered : ∀ id ∈ s.unsent ++ s.attempts.map (·.id), id ∈ order
  distinct : (s.unsent ++ s.attempts.map (·.id)).Nodup
  sent : (dispatch Map).sent past = s.attempts.map (·.id)
  quiet : (dispatch Map).threw past = false
  spent : s.last = none → (dispatch Map).Spent [] past
  live : ∀ response servedId, s.last = some (response, servedId) →
    (dispatch Map).Delivered [] past response.stream

namespace Tried

variable {order : List String} {s : OrderedState} {past later : Past Map} {id : String}

theorem start (h : Unsent past) : Tried order {} past where
  ordered := by simp
  distinct := List.nodup_nil
  sent := h.sent
  quiet := h.quiet
  spent _ := h.spent
  live := by
    intro response servedId hlast
    cases hlast

/-- The accounts tried are at most those of the order. -/
theorem length_le (h : Tried order s past) :
    (s.unsent ++ s.attempts.map (·.id)).length ≤ order.length :=
  (List.subperm_of_subset h.distinct h.ordered).length_le

/-- The account to try next was not tried. -/
theorem next (hL : NextUntried L) (h : nextId L r order s = some id) :
    id ∈ order ∧ id ∉ s.unsent ++ s.attempts.map (·.id) := by
  obtain ⟨hmem, hfresh⟩ := hL _ _ _ _ h
  obtain ⟨horder, hunsent⟩ := List.mem_filter.mp hmem
  refine ⟨horder, ?_⟩
  rw [List.mem_append]
  rintro (hid | hid)
  · exact of_decide_eq_true hunsent hid
  · exact hfresh hid

/-- There is room to try an account of the order that was not tried. -/
theorem isOpen (h : Tried order s past) (hsingle : r.replayable = false → ∃ id, order = [id])
    (hid : id ∈ order) (hfresh : id ∉ s.unsent ++ s.attempts.map (·.id)) :
    (dispatch Map).Open r.replayable past where
  quiet := h.quiet
  first hreplayable := by
    obtain ⟨only, rfl⟩ := hsingle hreplayable
    obtain rfl := List.mem_singleton.mp hid
    rw [h.sent, List.eq_nil_iff_forall_not_mem]
    intro other hother
    -- whatever was tried is the one account of the order, which was not
    have hmem := List.mem_append_right s.unsent hother
    exact hfresh (List.mem_singleton.mp (h.ordered other hmem) ▸ hmem)

theorem unsent (h : Tried order s past) (hq : (dispatch Map).Quiet past later) (hid : id ∈ order)
    (hfresh : id ∉ s.unsent ++ s.attempts.map (·.id)) (vaultRefused : Bool) :
    Tried order { s with unsent := s.unsent ++ [id], vaultRefused } later where
  ordered := by
    intro other hother
    simp only [List.mem_append, List.mem_singleton] at hother
    rcases hother with (hother | rfl) | hother
    · exact h.ordered other (List.mem_append_left _ hother)
    · exact hid
    · exact h.ordered other (List.mem_append_right _ hother)
  distinct := by
    have hperm : (s.unsent ++ [id] ++ s.attempts.map (·.id)).Perm
        (id :: (s.unsent ++ s.attempts.map (·.id))) := by
      rw [List.append_assoc]
      exact List.perm_middle
    exact hperm.nodup_iff.mpr (List.nodup_cons.mpr ⟨hfresh, h.distinct⟩)
  sent := hq.sent.trans h.sent
  quiet := hq.threw.trans h.quiet
  spent hlast := (h.spent hlast).of_quiet hq
  live response servedId hlast := (h.live response servedId hlast).of_quiet hq

/-- An answered attempt, once the answer before it has been dropped. -/
theorem answered (h : Tried order s past) (response : Response)
    (hsent : (dispatch Map).sent later = (dispatch Map).sent past ++ [id])
    (hquiet : (dispatch Map).threw later = (dispatch Map).threw past)
    (hlive : (dispatch Map).Delivered [] later response.stream) (hid : id ∈ order)
    (hfresh : id ∉ s.unsent ++ s.attempts.map (·.id)) :
    Tried order { s with
      attempts := s.attempts ++ [⟨id, response.status⟩]
      last := some (response, id) } later where
  ordered := by
    intro other hother
    simp only [List.map_append, List.map_cons, List.map_nil, List.mem_append,
      List.mem_singleton] at hother
    rcases hother with hother | hother | rfl
    · exact h.ordered other (List.mem_append_left _ hother)
    · exact h.ordered other (List.mem_append_right _ hother)
    · exact hid
  distinct := by
    rw [List.map_append, ← List.append_assoc]
    exact List.Nodup.append h.distinct (List.nodup_singleton id) (by simpa using hfresh)
  sent := by
    rw [hsent, h.sent, List.map_append]
    rfl
  quiet := hquiet.trans h.quiet
  spent := by
    intro hlast
    cases hlast
  live := by
    intro other servedId hlast
    cases hlast
    exact hlive

theorem of_quiet (h : Tried order s past) (hq : (dispatch Map).Quiet past later) :
    Tried order s later where
  ordered := h.ordered
  distinct := h.distinct
  sent := hq.sent.trans h.sent
  quiet := hq.threw.trans h.quiet
  spent hlast := (h.spent hlast).of_quiet hq
  live response servedId hlast := (h.live response servedId hlast).of_quiet hq

end Tried

theorem blocked_spec {past : Past Map} {block : PoolBlock} {cause : Option NoCredentialCause} :
    Sends r past (blocked r block cause : PoolM Map _) Whole := by
  unfold blocked
  split
  · exact Learning.ends_throw (by simp)
  · exact Learning.ends_pure (Whole.local fun _ hreply => by cases hreply)

theorem endOrdered_spec {order : List String} {s : OrderedState} {past : Past Map}
    (h : Tried order s past) : Sends r past (endOrdered r s : PoolM Map _) Whole := by
  unfold endOrdered
  split
  · rename_i response servedId hlast
    exact Learning.ends_pure (Whole.provider (h.live response servedId hlast))
  · exact blocked_spec

/-- The answer before is dropped once a later attempt has been answered. -/
theorem dropLast_spec {order : List String} {s : OrderedState} {past later : Past Map}
    {id : String} {stream : Nat} (h : Tried order s past)
    (hr : (dispatch Map).Responded past later id stream) {Q : Unit → Past Map → Prop}
    (hQ : ∀ last, (dispatch Map).sent last = (dispatch Map).sent past ++ [id] →
      (dispatch Map).threw last = (dispatch Map).threw past →
      (dispatch Map).Delivered [] last stream → Q () last) :
    Sends r later (dropLast s) Q := by
  unfold dropLast
  cases hlast : s.last with
  | none =>
      exact Learning.ends_pure (hQ later hr.sent hr.threw ((h.spent hlast).responded hr))
  | some answer =>
      obtain ⟨previous, servedId⟩ := answer
      refine cancel_spec fun last hcancelled => ?_
      exact hQ last (hcancelled.sent.trans hr.sent) (hcancelled.threw.trans hr.threw)
        ((h.live previous servedId hlast).replaced hr hcancelled)

theorem targetById_id {targets : List (PoolTarget Map)} {id : String} {target : PoolTarget Map}
    (h : targetById targets id = some target) : target.id = id := by
  simpa using List.find?_some h

theorem serveRows_spec (hL : NextUntried L) {routing : PoolRoutingInput Map}
    {targets : List (PoolTarget Map)} {order : List String}
    (hsingle : r.replayable = false → ∃ id, order = [id]) {fuel : Nat} {s : OrderedState}
    {m : PoolMoment Map} {past : Past Map} (h : Tried order s past)
    (hfuel : order.length < fuel + (s.unsent ++ s.attempts.map (·.id)).length) :
    Sends r past (serveRows L r routing targets order fuel s m) Whole := by
  induction fuel generalizing s m past with
  | zero =>
      have hlength := h.length_le
      omega
  | succ fuel ih =>
      rw [serveRows]
      split
      · exact endOrdered_spec h
      · rename_i row hrow
        obtain ⟨id, hnext, htarget⟩ := Option.bind_eq_some_iff.mp hrow
        obtain rfl := targetById_id htarget
        obtain ⟨hid, hfresh⟩ := Tried.next hL hnext
        have hopen := h.isOpen hsingle hid hfresh
        have hunsent : row.id ∉ (dispatch Map).sent past := by
          rw [h.sent]
          exact fun hmem => hfresh (List.mem_append_right _ hmem)
        dsimp only
        refine Learning.ends_bind (Learning.ends_attempt (sendTo_justified hunsent hopen ?_ ?_ ?_))
        · intro stream status m' later hresponded
          refine Learning.ends_bind (dropLast_spec h hresponded ?_)
          intro last hsent hquiet hlive
          have htried := h.answered ⟨stream, status⟩ hsent hquiet hlive hid hfresh
          refine Learning.ends_bind (afterLimit_spec ?_ ?_)
          · intro confirmed m'' final hq
            refine ih (htried.of_quiet hq) ?_
            simp only [List.length_append, List.length_map, List.length_cons, List.length_nil]
              at hfuel ⊢
            omega
          · intro m'' final
            exact Learning.ends_pure (Whole.local fun _ hreply => by cases hreply)
        · intro m' later hq
          refine ih (h.unsent hq hid hfresh _) ?_
          simp only [List.length_append, List.length_map, List.length_cons, List.length_nil]
            at hfuel ⊢
          omega
        · -- after a throw the answer before it stands, or the throw does
          intro aborted later hfruitless
          dsimp only
          split
          · exact Learning.ends_throw (by simp)
          · rename_i response servedId hlast
            split
            · exact Learning.ends_throw (by simp)
            · exact Learning.ends_pure
                (Whole.provider ((h.live response servedId hlast).of_fruitless hfruitless))

/-- The candidate advised is one the caller may use. -/
theorem advised_eligible {routes : List VaultRoute} {order eligible : List String}
    {i : Option (Fin (routingCandidates routes order eligible).length)} {id : String}
    (h : i.map (fun i => ((routingCandidates routes order eligible).get i).id) = some id) :
    id ∈ eligible := by
  obtain ⟨i, -, rfl⟩ := Option.map_eq_some_iff.mp h
  have hmem := List.get_mem (routingCandidates routes order eligible) i
  generalize (routingCandidates routes order eligible).get i = candidate at hmem ⊢
  obtain ⟨route, -, hcandidate⟩ := List.mem_filterMap.mp hmem
  split at hcandidate
  · rename_i hallowed
    split at hcandidate
    · cases hcandidate
      exact hallowed.2
    · cases hcandidate
  · cases hcandidate

/-- Advice names an account of the plan that the caller may use. -/
theorem chooseVaultRouting_spec {past : Past Map} {request : Option VaultRoutingRequest}
    {routing : PoolRoutingInput Map} {eligibleIds : Option (List String)} {m : PoolMoment Map}
    {Q : Option String × PoolMoment Map → Past Map → Prop}
    (h : ∀ advised m later, (dispatch Map).Quiet past later →
      (∀ id eligible, advised = some id → eligibleIds = some eligible → id ∈ eligible) →
      Q (advised, m) later) :
    Sends r past (chooseVaultRouting L r request routing eligibleIds m) Q := by
  have hnone : ∀ id eligible, none = some id → eligibleIds = some eligible → id ∈ eligible := by
    intro id eligible hid
    cases hid
  have hquiet : (dispatch Map).Quiet past past := ⟨rfl, rfl, rfl, rfl⟩
  unfold chooseVaultRouting
  split
  · exact Learning.ends_pure (h none m past hquiet hnone)
  · split
    · exact Learning.ends_pure (h none m past hquiet hnone)
    · split
      · exact Learning.ends_pure (h none m past hquiet hnone)
      · rename_i order _ _
        dsimp only
        split
        · exact Learning.ends_pure (h none m past hquiet hnone)
        · refine quiet_spec rfl rfl ?_
          rintro ⟨advised, m'⟩ later hq
          refine h _ m' later hq fun id eligible hid heligible => ?_
          subst heligible
          exact advised_eligible hid

theorem serveOrdered_spec (hL : NextUntried L) {past : Past Map}
    {request : Option VaultRoutingRequest} {targets : List (PoolTarget Map)} {m : PoolMoment Map}
    (h : Unsent past) :
    Sends r past (serveOrdered L dateParse r request targets m) Whole := by
  unfold serveOrdered
  dsimp only
  split
  · split
    · rename_i block _ reply hreply
      refine Learning.ends_pure (Whole.local fun response hresponse => ?_)
      unfold terminalResponse at hreply
      split at hreply
      · cases hreply
        cases hresponse
      · cases hreply
    · exact blocked_spec
  · rename_i planned lastPath hplan
    refine Learning.ends_bind (chooseVaultRouting_spec ?_)
    intro preferred m' later hquiet hadvice
    refine serveRows_spec hL ?_ (Tried.start (h.of_quiet hquiet)) (by simp)
    -- a plan for one send names one account, and advice keeps to the plan
    intro hreplayable
    rw [hreplayable] at hplan
    obtain ⟨only, rfl⟩ := planOrdered_single hplan
    cases preferred with
    | none => exact ⟨only, rfl⟩
    | some id =>
        obtain rfl := List.mem_singleton.mp (hadvice id _ rfl rfl)
        exact ⟨id, by simp⟩

/-! ## The sticky path -/

section Sticky

variable {sessionHash : String} {bytes : ℚ} {targets : List (PoolTarget Map)}
  {routing : PoolRoutingInput Map} {m : PoolMoment Map} {past : Past Map}

theorem adviseSticky_spec (h : Unsent past) :
    Sends r past (adviseSticky L r sessionHash bytes targets routing m)
      fun _ later => Unsent later := by
  unfold adviseSticky
  split
  · dsimp only
    split
    · refine Learning.ends_bind (chooseVaultRouting_spec ?_)
      intro advised m' later hquiet _
      exact Learning.ends_pure (h.of_quiet hquiet)
    · exact Learning.ends_pure h
  · exact Learning.ends_pure h

/-- The second send goes to another account, and the first answer is dropped
only for the second. -/
theorem retrySticky_spec (hreplayable : r.replayable = true) {row : PoolTarget Map}
    {response : Response} {confirmed : Bool} (hsent : (dispatch Map).sent past = [row.id])
    (hquiet : (dispatch Map).threw past = false)
    (hlive : (dispatch Map).Delivered [] past response.stream) :
    Sends r past (retrySticky L dateParse r sessionHash bytes targets row response confirmed m)
      Whole := by
  unfold retrySticky
  dsimp only
  split
  · split
    · exact Learning.ends_pure (Whole.provider hlive)
    · rename_i replacement hreplacement
      obtain ⟨pin, hpin, hfound⟩ := Option.bind_eq_some_iff.mp hreplacement
      have hother : pin.accountId ≠ row.id :=
        of_decide_eq_true (Option.filter_eq_some_iff.mp hpin).2
      have hid : replacement.id = pin.accountId := by simpa using List.find?_some hfound
      have hfresh : replacement.id ∉ (dispatch Map).sent past := by
        rw [hsent, List.mem_singleton, hid]
        exact hother
      have hopen : (dispatch Map).Open r.replayable past := by
        refine ⟨hquiet, fun hnot => ?_⟩
        rw [hreplayable] at hnot
        cases hnot
      refine Learning.ends_bind (sendTo_spec hfresh hopen ?_ ?_)
      · intro stream status m' later hresponded
        refine Learning.ends_bind (cancel_spec ?_)
        intro last hcancelled
        exact Learning.ends_pure (Whole.provider (hlive.replaced hresponded hcancelled))
      · intro m' later hq
        exact Learning.ends_pure (Whole.provider (hlive.of_quiet hq))
  · exact Learning.ends_pure (Whole.provider hlive)

theorem sendSticky_spec (hreplayable : r.replayable = true) (h : Unsent past)
    {row : PoolTarget Map} :
    Sends r past (sendSticky L dateParse r sessionHash bytes targets routing row m) Served := by
  unfold sendSticky
  refine Learning.ends_bind (sendTo_spec (h.fresh _) (h.isOpen _) ?_ ?_)
  · intro stream status m' later hresponded
    have hlive := h.spent.responded hresponded
    refine Learning.ends_bind (afterLimit_spec ?_ ?_)
    · intro confirmed m'' last hq
      dsimp only
      split
      · rename_i hhold
        cases hhold
      · split
        · refine Learning.ends_bind (Learning.ends_mono (retrySticky_spec hreplayable ?_ ?_
            (hlive.of_quiet hq)) ?_)
          · rw [hq.sent, hresponded.sent, h.sent, List.nil_append]
          · exact hq.threw.trans (hresponded.threw.trans h.quiet)
          · intro result final hwhole
            exact Learning.ends_pure hwhole
        · exact Learning.ends_pure (Whole.provider (hlive.of_quiet hq))
    · intro m'' last
      exact Learning.ends_pure (Whole.local fun _ hreply => by cases hreply)
  · intro m' later hq
    exact Learning.ends_pure (h.of_quiet hq)

theorem serveSticky_spec (hreplayable : r.replayable = true) (h : Unsent past) :
    Sends r past (serveSticky L dateParse r sessionHash bytes targets m) Served := by
  unfold serveSticky
  dsimp only
  refine Learning.ends_bind (Learning.ends_mono (adviseSticky_spec h) ?_)
  rintro ⟨preferred, m'⟩ later hunsent
  dsimp only
  split
  · exact Learning.ends_pure hunsent
  · split
    · exact Learning.ends_pure hunsent
    · exact sendSticky_spec hreplayable hunsent

end Sticky

/-! ## The whole request -/

theorem routeRequest_spec (hL : NextUntried L) {past : Past Map}
    {targets : List (PoolTarget Map)} {m : PoolMoment Map} (h : Unsent past) :
    Sends r past (routeRequest L dateParse r targets m) Whole := by
  unfold routeRequest
  split
  · split
    · rename_i hsticky
      have hreplayable : r.replayable = true := (Bool.and_eq_true_iff.mp hsticky).2
      refine Learning.ends_bind (Learning.ends_mono (serveSticky_spec hreplayable h) ?_)
      rintro ⟨served, m'⟩ later hserved
      cases served with
      | some result => exact Learning.ends_pure hserved
      | none => exact serveOrdered_spec hL hserved
    · exact serveOrdered_spec hL h
  · exact serveOrdered_spec hL h

theorem awaitReadings_spec {past : Past Map} {m : PoolMoment Map} (h : Unsent past) :
    Sends r past (awaitReadings L dateParse r m) fun _ later => Unsent later := by
  unfold awaitReadings
  split
  · refine Learning.ends_bind (quiet_spec rfl rfl ?_)
    intro answer later hquiet
    exact Learning.ends_pure (h.of_quiet hquiet)
  · exact Learning.ends_pure h

theorem servePoolRequest_spec (hL : NextUntried L) :
    Sends r [] (servePoolRequest L sameAccount dateParse r) Whole := by
  unfold servePoolRequest
  refine Learning.ends_bind (quiet_spec rfl rfl ?_)
  intro m past hquiet
  refine Learning.ends_bind (Learning.ends_mono (awaitReadings_spec (Unsent.nil.of_quiet hquiet)) ?_)
  intro m' later hunsent
  refine Learning.ends_bind (Learning.ends_mono (consumeHold_spec hunsent) ?_)
  rintro ⟨held, m''⟩ last hserved
  cases held with
  | some result => exact Learning.ends_pure hserved
  | none => exact routeRequest_spec hL hserved

/-! ## The discipline -/

/-- One pooled request sends to no account twice, sends nothing after a send that
threw and at most once what cannot be replayed; of the provider's responses it
returns the one whose body it has not cancelled, and its loop over the rows comes
to an end. -/
theorem pool_send_discipline (L : Library Map) (sameAccount : AccountKey → AccountKey → Bool)
    (dateParse : String → Option ℚ) (r : PoolRequestContext) (hL : NextUntried L)
    {trace : Past Map} {q : Prog (sig Map) (Except Failure PoolRequestResult)}
    (hmakes : (servePoolRequest L sameAccount dateParse r).run.Makes trace q) :
    ((dispatch Map).sent trace).Nodup ∧
      (∀ before x after, trace = before ++ x :: after → (dispatch Map).threw before = true →
        (dispatch Map).target x.1 = none) ∧
      (r.replayable = false → ((dispatch Map).sent trace).length ≤ 1) ∧
      (∀ result response, q = .ret (.ok result) → result.reply = .provider response →
        (∀ body ∈ (dispatch Map).obtained trace, body ≠ response.stream →
          body ∈ (dispatch Map).cancelled trace) ∧
        (((dispatch Map).obtained trace).Nodup →
          response.stream ∉ (dispatch Map).cancelled trace)) ∧
      q ≠ .ret (.error .loopEnds) := by
  have hspec := @servePoolRequest_spec Map L sameAccount dateParse r hL
  have hdiscipline := Dispatch.disciplined_of_justified hspec hmakes Dispatch.Disciplined.nil
  have hend := Learning.justified_makes hspec hmakes
  rw [Learning.learnAll_history] at hend
  refine ⟨hdiscipline.once, hdiscipline.quiet, hdiscipline.single, ?_, ?_⟩
  · rintro result response rfl hreply
    have hlive := hend.1 result rfl response hreply
    exact ⟨fun body hbody hne => hlive.others hbody hne, fun hnodup => hlive.whole hnodup⟩
  · rintro rfl
    exact hend.2 _ rfl rfl

instance (Map : Type) : DecidableEq (sig Map).Call := inferInstanceAs (DecidableEq Call)

/-- A library for rows that are all free: the first row that passes serves, and a
refused pin moves there. -/
def freeLibrary : Library ProjectedQuota where
  projectQuota := fun map => map.getD {}
  budgetExhaustedResetAt := fun _ _ => false
  quotaStalenessMs := 600000
  admitRows := fun rows _ => { admitted := rows.map fun row => { id := row.id } }
  routeOrdered := fun input _ _ =>
    { order := (input.rows.map (·.id)).filter (input.passes ·)
      admission := { admitted := input.rows.map fun row => { id := row.id } } }
  orderForPlacement := fun ids _ _ => ids
  routeSticky := fun rows input _ pin _ =>
    { dispatch := ((pin.filter (input.passes ·)).map fun id =>
          { accountId := id, source := .pin }).or
        (((rows.map (·.id)).find? (input.passes ·)).map fun id =>
          { accountId := id, source := .weighted, assigns := true })
      admission := { admitted := rows.map fun row => { id := row.id } } }
  decideStickyBreak := fun _ _ status _ => status.isSome
  nextOrderedAttempt := fun order attempts statuses =>
    if attempts.getLast?.all (·.status ∈ statuses) then
      order.find? fun id => id ∉ attempts.map (·.id)
    else none

theorem freeLibrary_untried : NextUntried freeLibrary := by
  intro order attempts statuses id h
  simp only [freeLibrary] at h
  split at h
  · have hfresh := List.find?_some h
    exact ⟨List.mem_of_find?_eq_some h, by simpa using hfresh⟩
  · cases h

/-- Main and one other row, without a killswitch. -/
def twoRows : Roster ProjectedQuota where
  targets := [{ id := "main", isRow := true }, { id := "work", isRow := true }]
  distinct := by decide

def idleMoment : PoolMoment ProjectedQuota where
  now := 0
  targets := twoRows
  rateLimitMarks := fun _ => none
  vaultRateLimitMarks := fun _ => none
  refreshBackoff := fun _ => none
  usableToken := fun _ => true
  accountKeys := []
  currentAccountKey := none
  pending := none
  vaultRoutes := []
  resetCredits := fun _ => none
  sidebarSnapshot := { state := {}, readAt := 0, started := none }
  overlay := .empty

def orderedRequest : PoolRequestContext where
  vault := false
  limitPolicy := false
  storage := none
  mode := .mainFirst
  sessionHash := none
  routingRequest := none
  body := some 2
  model := "gpt-5"
  replayable := true
  loginRequired := false

/-- Main answers 429 and the other row 200. -/
def orderedTrace : Past ProjectedQuota :=
  [⟨.prepare, idleMoment⟩,
    ⟨.sendTo "main" none, (.response 0 429, idleMoment)⟩,
    ⟨.sendTo "work" none, (.response 1 200, idleMoment)⟩,
    ⟨.cancel 0, ()⟩]

theorem pool_send_discipline_ordered :
    ((dispatch ProjectedQuota).sent orderedTrace).Nodup ∧
      (dispatch ProjectedQuota).sent orderedTrace = ["main", "work"] ∧
      1 ∉ (dispatch ProjectedQuota).cancelled orderedTrace := by
  have hmakes : (servePoolRequest freeLibrary (fun _ _ => false) (fun _ => none)
      orderedRequest).run.Makes orderedTrace
        (.ret (.ok ⟨.provider ⟨1, 200⟩, "work"⟩)) := Prog.makes_of_value (by decide +kernel)
  have hdiscipline := pool_send_discipline freeLibrary (fun _ _ => false) (fun _ => none)
    orderedRequest freeLibrary_untried hmakes
  exact ⟨hdiscipline.1, rfl, (hdiscipline.2.2.2.1 _ ⟨1, 200⟩ rfl rfl).2 (by decide)⟩

end Request.Pool
