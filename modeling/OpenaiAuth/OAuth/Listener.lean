import OpenaiAuth.OAuth.Flows
import Mathlib.Logic.Function.Basic

/-! # The listeners and the flows that wait on them

`Inv` ties `pendingFlows`, the exchanges and the settlements to the phases of the flows, in every
run. The listeners stay as long as the claim of each flow on them can be seen in `pendingFlows`,
and a step that meets a flow which cannot be seen there is a `Lapse`.

Main result: `browser_flows`.
-/

namespace OAuth

namespace State

variable {T : Type}

/-! ## Fields -/

section Fields

variable (s : State T)

@[simp] theorem stopIdle_flows : s.stopIdle.flows = s.flows := by
  unfold stopIdle
  split <;> rfl

@[simp] theorem stopIdle_pendingFlows : s.stopIdle.pendingFlows = s.pendingFlows := by
  unfold stopIdle
  split <;> rfl

@[simp] theorem stopIdle_exchanges : s.stopIdle.exchanges = s.exchanges := by
  unfold stopIdle
  split <;> rfl

@[simp] theorem stopIdle_settlements : s.stopIdle.settlements = s.settlements := by
  unfold stopIdle
  split <;> rfl

@[simp] theorem stopIdle_requests : s.stopIdle.requests = s.requests := by
  unfold stopIdle
  split <;> rfl

@[simp] theorem stopIdle_serverStarting : s.stopIdle.serverStarting = s.serverStarting := by
  unfold stopIdle
  split <;> rfl

theorem stopIdle_oauthServers :
    s.stopIdle.oauthServers = if s.pendingFlows.size = 0 then [] else s.oauthServers := by
  unfold stopIdle flowCount
  split <;> rfl

/-- Where the promise of a flow stands, and the request of the flow. A flow that is not there is
one that has not asked yet. -/
def place (n : ℕ) : Stage × Option AuthRequest :=
  (s.flows[n]?.map fun flow => (flow.phase.stage, flow.request)).getD (.early, none)

theorem place_congr {s s' : State T} (h : s'.flows = s.flows) : s'.place = s.place := by
  funext n
  rw [place, place, h]

theorem place_of_phaseAt {n : ℕ} {phase : Phase} (h : s.phaseAt n = some phase) :
    (s.place n).1 = phase.stage := by
  rw [phaseAt, Option.map_eq_some_iff] at h
  obtain ⟨flow, hflow, rfl⟩ := h
  rw [place, hflow]
  rfl

theorem exists_flow {n : ℕ} (h : (s.place n).1 ≠ .early) :
    ∃ flow, s.flows[n]? = some flow ∧ s.place n = (flow.phase.stage, flow.request) := by
  cases hflow : s.flows[n]? with
  | none =>
      rw [place, hflow] at h
      exact absurd rfl h
  | some flow =>
      refine ⟨flow, rfl, ?_⟩
      rw [place, hflow]
      rfl

theorem setPhase_getElem? (n m : ℕ) (phase : Phase) :
    (s.setPhase n phase).flows[m]? =
      if n = m then s.flows[m]?.map fun flow => { flow with phase := phase } else s.flows[m]? := by
  rw [setPhase, List.getElem?_modify]
  split <;> simp

theorem place_setPhase {n : ℕ} {flow : Flow} (h : s.flows[n]? = some flow) (phase : Phase) :
    (s.setPhase n phase).place = Function.update s.place n (phase.stage, flow.request) := by
  funext m
  rw [place, setPhase_getElem?]
  by_cases hm : n = m
  · subst hm
    rw [if_pos rfl, h, Function.update_self]
    rfl
  · rw [if_neg hm, Function.update_of_ne (Ne.symm hm), place]

theorem phaseAt_setPhase (n m : ℕ) (phase : Phase) :
    (s.setPhase n phase).phaseAt m =
      if n = m then (s.phaseAt m).map fun _ => phase else s.phaseAt m := by
  rw [phaseAt, setPhase_getElem?, phaseAt]
  split
  · rw [Option.map_map, Option.map_map]
    rfl
  · rfl

end Fields

/-! ## The records of a run -/

/-- The records agree with the phases of the flows. -/
structure Inv (s : State T) : Prop where
  distinct : ∀ n m r r', (s.place n).2 = some r → (s.place m).2 = some r' → r.state = r'.state → n = m
  entries : ∀ state entry, s.pendingFlows.get state = some entry →
    entry.state = state ∧ s.place entry.flow = (.waiting, some ⟨state, entry.pkce⟩)
  waiting : ∀ n, (s.place n).1 = .waiting →
    ∃ state entry, s.pendingFlows.get state = some entry ∧ entry.flow = n
  exchanges : ∀ x ∈ s.exchanges, x.entry.pkce = x.pkce ∧
    s.place x.entry.flow = (if x.result.isSome then .over else .exchanging, some ⟨x.state, x.pkce⟩) ∧
      ∃ url ∈ s.requests, url.pathname = "/auth/callback" ∧ url.state = some x.state ∧
        url.code = some x.code
  exchangesOnce : s.ExchangesOnce
  settlements : ∀ n r, (n, r) ∈ s.settlements → (s.place n).1 = .over ∧
    ∀ tokens, r = .ok tokens → ∃ x ∈ s.exchanges, x.entry.flow = n ∧ x.result = some (.ok tokens)
  settlesOnce : (s.settlements.map Prod.fst).Nodup

/-- The step changes nothing that the records speak about. -/
theorem Inv.congr {s s' : State T} (h : Inv s) (hplace : s'.place = s.place)
    (hpending : s'.pendingFlows.get = s.pendingFlows.get) (hexchanges : s'.exchanges = s.exchanges)
    (hsettlements : s'.settlements = s.settlements) (hrequests : s.requests ⊆ s'.requests) :
    Inv s' where
  distinct := by
    rw [hplace]
    exact h.distinct
  entries := by
    rw [hplace, hpending]
    exact h.entries
  waiting := by
    rw [hplace, hpending]
    exact h.waiting
  exchanges := by
    rw [hplace, hexchanges]
    intro x hx
    obtain ⟨hpkce, hplaced, url, hurl, hsent⟩ := h.exchanges x hx
    exact ⟨hpkce, hplaced, url, hrequests hurl, hsent⟩
  exchangesOnce := by
    rw [ExchangesOnce, hexchanges]
    exact h.exchangesOnce
  settlements := by
    rw [hplace, hexchanges, hsettlements]
    exact h.settlements
  settlesOnce := by
    rw [hsettlements]
    exact h.settlesOnce

theorem Inv.stopIdle {s : State T} (h : Inv s) : Inv s.stopIdle :=
  h.congr (place_congr (by simp)) (by simp) (by simp) (by simp) (by simp)

/-- A flow goes on to a stage that comes after its own, and what the records say of it changes
with it. -/
structure Turns (s s' : State T) (n : ℕ) (stage : Stage) (r : AuthRequest) : Prop where
  place : s'.place = Function.update s.place n (stage, some r)
  later : (s.place n).1 ≠ stage ∧ (s.place n).1 ≠ .over
  own : (s.place n).2 = some r ∨ ∀ m r', (s.place m).2 = some r' → r'.state ≠ r.state
  requests : s'.requests = s.requests

section Turns

variable {s s' : State T} {n : ℕ} {stage : Stage} {r : AuthRequest}

theorem Turns.distinct (h : Turns s s' n stage r) (hinv : Inv s) (m k : ℕ) (q q' : AuthRequest)
    (hm : (s'.place m).2 = some q) (hk : (s'.place k).2 = some q') (heq : q.state = q'.state) :
    m = k := by
  -- the flow keeps its request, or draws a state that no other flow has
  have hlook : ∀ m' q, (s'.place m').2 = some q →
      (m' = n ∧ q = r) ∨ (m' ≠ n ∧ (s.place m').2 = some q) := by
    intro m' q hm'
    rw [h.place] at hm'
    by_cases hne : m' = n
    · subst hne
      rw [Function.update_self] at hm'
      exact .inl ⟨rfl, (Option.some.inj hm').symm⟩
    · rw [Function.update_of_ne hne] at hm'
      exact .inr ⟨hne, hm'⟩
  have hown : ∀ m' q, (s.place m').2 = some q → q.state = r.state → m' = n := by
    intro m' q hm' hstate
    rcases h.own with hown | hfresh
    · exact hinv.distinct m' n q r hm' hown hstate
    · exact absurd hstate (hfresh m' q hm')
  rcases hlook m q hm with ⟨rfl, rfl⟩ | ⟨hmn, hm⟩
  · rcases hlook k q' hk with ⟨rfl, -⟩ | ⟨-, hk⟩
    · rfl
    · exact (hown k q' hk heq.symm).symm
  · rcases hlook k q' hk with ⟨rfl, rfl⟩ | ⟨-, hk⟩
    · exact hown m q hm heq
    · exact hinv.distinct m k q q' hm hk heq

theorem Turns.place_of_ne (h : Turns s s' n stage r) {m : ℕ} (hm : m ≠ n) :
    s'.place m = s.place m := by
  rw [h.place, Function.update_of_ne hm]

theorem Turns.place_self (h : Turns s s' n stage r) : s'.place n = (stage, some r) := by
  rw [h.place, Function.update_self]

/-- A flow that does not wait now has no entry, and the others keep theirs. -/
theorem Turns.leaves (h : Turns s s' n stage r) (hinv : Inv s) (hstage : stage ≠ .waiting)
    (hself : (s.place n).1 = .waiting → (s.place n).2 = some r)
    (hget : ∀ key, s'.pendingFlows.get key =
      if key = r.state then none else s.pendingFlows.get key) :
    (∀ state entry, s'.pendingFlows.get state = some entry →
      entry.state = state ∧ s'.place entry.flow = (.waiting, some ⟨state, entry.pkce⟩)) ∧
    ∀ m, (s'.place m).1 = .waiting →
      ∃ state entry, s'.pendingFlows.get state = some entry ∧ entry.flow = m := by
  constructor
  · intro state entry hentry
    rw [hget] at hentry
    split at hentry
    · cases hentry
    · rename_i hne
      obtain ⟨hstate, hplaced⟩ := hinv.entries state entry hentry
      have hother : entry.flow ≠ n := by
        rintro rfl
        have hrequest := hself (congrArg Prod.fst hplaced)
        rw [hplaced] at hrequest
        obtain rfl := Option.some.inj hrequest
        exact hne rfl
      exact ⟨hstate, (h.place_of_ne hother).trans hplaced⟩
  · intro m hm
    have hother : m ≠ n := by
      rintro rfl
      rw [h.place_self] at hm
      exact hstage hm
    rw [h.place_of_ne hother] at hm
    obtain ⟨state, entry, hentry, rfl⟩ := hinv.waiting m hm
    refine ⟨state, entry, ?_, rfl⟩
    have hplaced := congrArg Prod.snd (hinv.entries state entry hentry).2
    rw [hget, if_neg, hentry]
    rintro rfl
    rcases h.own with hown | hfresh
    · exact hother (hinv.distinct _ n _ r hplaced hown rfl)
    · exact hfresh _ _ hplaced rfl

/-- An exchange of another flow. -/
theorem Turns.exchanges (h : Turns s s' n stage r) (hinv : Inv s) {x : Exchange T}
    (hx : x ∈ s.exchanges) (hne : x.entry.flow ≠ n) : x.entry.pkce = x.pkce ∧
      s'.place x.entry.flow = (if x.result.isSome then .over else .exchanging, some ⟨x.state, x.pkce⟩) ∧
        ∃ url ∈ s'.requests, url.pathname = "/auth/callback" ∧ url.state = some x.state ∧
          url.code = some x.code := by
  rw [h.place_of_ne hne, h.requests]
  exact hinv.exchanges x hx

/-- The code of a flow is exchanged after its callback came. -/
theorem Inv.exchange_ne (hinv : Inv s) {x : Exchange T} (hx : x ∈ s.exchanges)
    (hn : (s.place n).1 ≠ .exchanging) (hover : (s.place n).1 ≠ .over) : x.entry.flow ≠ n := by
  rintro rfl
  have hplaced := congrArg Prod.fst (hinv.exchanges x hx).2.1
  dsimp only at hplaced
  split at hplaced
  · exact hover hplaced
  · exact hn hplaced

theorem Inv.settlement_ne (hinv : Inv s) {m : ℕ} {result : Except String T}
    (hm : (m, result) ∈ s.settlements) (hover : (s.place n).1 ≠ .over) : m ≠ n := by
  rintro rfl
  exact hover (hinv.settlements m result hm).1

/-- The flow that settles has not settled before. -/
theorem Turns.settlesOnce (h : Turns s s' n stage r) (hinv : Inv s) {result : Except String T}
    (hsettlements : s'.settlements = (n, result) :: s.settlements) :
    (s'.settlements.map Prod.fst).Nodup := by
  rw [hsettlements, List.map_cons, List.nodup_cons]
  refine ⟨?_, hinv.settlesOnce⟩
  rw [List.mem_map]
  rintro ⟨⟨m, result'⟩, hmem, hm⟩
  exact hinv.settlement_ne hmem h.later.2 hm

/-- A flow fails. -/
theorem Turns.fails (h : Turns s s' n .over r) (hinv : Inv s) {error : String}
    (hexchanging : (s.place n).1 ≠ .exchanging)
    (hself : (s.place n).1 = .waiting → (s.place n).2 = some r)
    (hget : ∀ key, s'.pendingFlows.get key = if key = r.state then none else s.pendingFlows.get key)
    (hexchanges : s'.exchanges = s.exchanges)
    (hsettlements : s'.settlements = (n, .error error) :: s.settlements) : Inv s' where
  distinct := h.distinct hinv
  entries := (h.leaves hinv nofun hself hget).1
  waiting := (h.leaves hinv nofun hself hget).2
  exchanges := by
    rw [hexchanges]
    exact fun x hx => h.exchanges hinv hx (hinv.exchange_ne hx hexchanging h.later.2)
  exchangesOnce := by
    rw [ExchangesOnce, hexchanges]
    exact hinv.exchangesOnce
  settlements := by
    rw [hsettlements, hexchanges]
    intro m result hmem
    rcases List.mem_cons.mp hmem with heq | hmem
    · obtain ⟨rfl, rfl⟩ := Prod.mk.inj heq
      exact ⟨by rw [h.place_self], nofun⟩
    · rw [h.place_of_ne (hinv.settlement_ne hmem h.later.2)]
      exact hinv.settlements m result hmem
  settlesOnce := h.settlesOnce hinv hsettlements

/-- The callback of a flow brings a code. -/
theorem Turns.delivers (h : Turns s s' n .exchanging r) (hinv : Inv s) {x : Exchange T}
    (hwaiting : s.place n = (.waiting, some r))
    (hget : ∀ key, s'.pendingFlows.get key = if key = r.state then none else s.pendingFlows.get key)
    (hflow : x.entry.flow = n) (hstate : x.state = r.state) (hpkce : x.pkce = r.pkce)
    (hentry : x.entry.pkce = x.pkce) (hresult : x.result = none)
    (hsent : ∃ url ∈ s.requests, url.pathname = "/auth/callback" ∧ url.state = some x.state ∧
      url.code = some x.code)
    (hexchanges : s'.exchanges = s.exchanges ++ [x]) (hsettlements : s'.settlements = s.settlements) :
    Inv s' where
  distinct := h.distinct hinv
  entries := (h.leaves hinv nofun (fun _ => congrArg Prod.snd hwaiting) hget).1
  waiting := (h.leaves hinv nofun (fun _ => congrArg Prod.snd hwaiting) hget).2
  exchanges := by
    rw [hexchanges]
    intro y hy
    rcases List.mem_append.mp hy with hy | hy
    · refine h.exchanges hinv hy (hinv.exchange_ne hy ?_ h.later.2)
      rw [hwaiting]
      nofun
    · obtain rfl := List.mem_singleton.mp hy
      have hrequest : r = ⟨y.state, y.pkce⟩ := by rw [hstate, hpkce]
      rw [hflow, h.place_self, hresult, h.requests, hrequest]
      exact ⟨hentry, rfl, hsent⟩
  exchangesOnce := by
    rw [ExchangesOnce, hexchanges, List.map_append, List.nodup_append]
    refine ⟨hinv.exchangesOnce, List.nodup_singleton _, ?_⟩
    intro state hmem state' hmem'
    obtain ⟨y, hy, rfl⟩ := List.mem_map.mp hmem
    obtain rfl := List.mem_singleton.mp hmem'
    intro heq
    -- the state is the flow's own, and its code would have been exchanged before
    have hplaced := (hinv.exchanges y hy).2.1
    have hsame : y.entry.flow = n :=
      hinv.distinct _ n _ r (congrArg Prod.snd hplaced) (congrArg Prod.snd hwaiting)
        (heq.trans hstate)
    refine hinv.exchange_ne hy ?_ h.later.2 hsame
    rw [hwaiting]
    nofun
  settlements := by
    rw [hsettlements, hexchanges]
    intro m result hmem
    rw [h.place_of_ne (hinv.settlement_ne hmem h.later.2)]
    obtain ⟨hover, htokens⟩ := hinv.settlements m result hmem
    refine ⟨hover, fun tokens htok => ?_⟩
    obtain ⟨y, hy, hyn⟩ := htokens tokens htok
    exact ⟨y, List.mem_append_left _ hy, hyn⟩
  settlesOnce := by
    rw [hsettlements]
    exact hinv.settlesOnce

/-- The exchange of a flow's code is answered. -/
theorem Turns.answers (h : Turns s s' n .over r) (hinv : Inv s) {i : ℕ} {x : Exchange T}
    {result : Except String T} (hx : s.exchanges[i]? = some x) (hflow : x.entry.flow = n)
    (hplaced : s.place n = (.exchanging, some r)) (hpending : s'.pendingFlows.get = s.pendingFlows.get)
    (hexchanges : s'.exchanges = s.exchanges.set i { x with result := some result })
    (hsettlements : s'.settlements = (n, result) :: s.settlements) : Inv s' := by
  have hmem := List.mem_of_getElem? hx
  have hlt : i < s.exchanges.length := (List.getElem?_eq_some_iff.mp hx).1
  have habsent : s.pendingFlows.get r.state = none := by
    cases hget : s.pendingFlows.get r.state with
    | none => rfl
    | some entry =>
        have hwaits := (hinv.entries _ _ hget).2
        obtain rfl := hinv.distinct _ n _ r (congrArg Prod.snd hwaits) (congrArg Prod.snd hplaced) rfl
        rw [hwaits] at hplaced
        cases hplaced
  have hget : ∀ key, s'.pendingFlows.get key =
      if key = r.state then none else s.pendingFlows.get key := by
    intro key
    rw [hpending]
    split
    · rename_i heq
      rw [heq, habsent]
    · rfl
  have hleaves := h.leaves hinv nofun (by rw [hplaced]; nofun) hget
  have hstates : s'.exchanges.map (·.state) = s.exchanges.map (·.state) := by
    have hlt' : i < (s.exchanges.map (·.state)).length := by rwa [List.length_map]
    have hself : (s.exchanges.map (·.state))[i] = x.state := by
      rw [List.getElem_map, (List.getElem?_eq_some_iff.mp hx).2]
    rw [hexchanges, List.map_set, ← hself]
    exact List.set_getElem_self hlt'
  -- nobody else's code was exchanged for this flow
  have hothers : ∀ y ∈ s'.exchanges, y = { x with result := some result } ∨
      y ∈ s.exchanges ∧ y.entry.flow ≠ n := by
    intro y hy
    rw [hexchanges] at hy
    obtain ⟨j, hj⟩ := List.mem_iff_getElem?.mp hy
    by_cases hij : i = j
    · subst hij
      rw [List.getElem?_set_self hlt] at hj
      exact .inl (Option.some.inj hj).symm
    · rw [List.getElem?_set_ne hij] at hj
      refine .inr ⟨List.mem_of_getElem? hj, fun hyn => hij ?_⟩
      have hrequest := congrArg Prod.snd (hinv.exchanges x hmem).2.1
      have hrequest' := congrArg Prod.snd (hinv.exchanges y (List.mem_of_getElem? hj)).2.1
      rw [hflow] at hrequest
      rw [hyn, hrequest] at hrequest'
      have hsame : x.state = y.state := congrArg AuthRequest.state (Option.some.inj hrequest')
      have hlt' : i < (s.exchanges.map (·.state)).length := by rwa [List.length_map]
      refine (List.getElem?_inj hlt' hinv.exchangesOnce).mp ?_
      rw [List.getElem?_map, List.getElem?_map, hx, hj]
      exact congrArg some hsame
  have hold : ∀ y ∈ s.exchanges, y.entry.flow ≠ n → y ∈ s'.exchanges := by
    intro y hy hyn
    obtain ⟨j, hj⟩ := List.mem_iff_getElem?.mp hy
    rw [hexchanges]
    refine List.mem_of_getElem? (i := j) ?_
    rw [List.getElem?_set_ne, hj]
    rintro rfl
    rw [hx] at hj
    obtain rfl := Option.some.inj hj
    exact hyn hflow
  refine ⟨h.distinct hinv, hleaves.1, hleaves.2, ?_, ?_, ?_, h.settlesOnce hinv hsettlements⟩
  · intro y hy
    rcases hothers y hy with rfl | ⟨hy, hyn⟩
    · obtain ⟨hpkce, hrequest, hsent⟩ := hinv.exchanges x hmem
      rw [hflow, hplaced] at hrequest
      refine ⟨hpkce, ?_, h.requests ▸ hsent⟩
      rw [hflow, h.place_self]
      exact congrArg (Prod.mk Stage.over) (congrArg Prod.snd hrequest)
    · exact h.exchanges hinv hy hyn
  · rw [ExchangesOnce, hstates]
    exact hinv.exchangesOnce
  · rw [hsettlements]
    intro m result' hm
    rcases List.mem_cons.mp hm with heq | hm
    · obtain ⟨rfl, rfl⟩ := Prod.mk.inj heq
      refine ⟨by rw [h.place_self], fun tokens htokens => ?_⟩
      refine ⟨{ x with result := some result' }, ?_, hflow, congrArg some htokens⟩
      rw [hexchanges]
      exact List.mem_of_getElem? (List.getElem?_set_self hlt)
    · have hmn := hinv.settlement_ne hm h.later.2
      rw [h.place_of_ne hmn]
      obtain ⟨hover, htokens⟩ := hinv.settlements m result' hm
      refine ⟨hover, fun tokens htok => ?_⟩
      obtain ⟨y, hy, hym, hresult⟩ := htokens tokens htok
      exact ⟨y, hold y hy (hym ▸ hmn), hym, hresult⟩

/-- A flow registers. -/
theorem Turns.registers (h : Turns s s' n .waiting r) (hinv : Inv s)
    (hearly : (s.place n).1 = .early) (hfresh : ∀ m r', (s.place m).2 = some r' → r'.state ≠ r.state)
    (hpending : s'.pendingFlows = s.pendingFlows.set r.state ⟨r.pkce, r.state, n⟩)
    (hexchanges : s'.exchanges = s.exchanges) (hsettlements : s'.settlements = s.settlements) :
    Inv s' where
  distinct := h.distinct hinv
  entries := by
    intro state entry hentry
    rw [hpending, Js.Table.get_set] at hentry
    split at hentry
    · rename_i heq
      obtain rfl := Option.some.inj hentry
      refine ⟨heq.symm, ?_⟩
      rw [h.place_self, heq]
    · obtain ⟨hstate, hplaced⟩ := hinv.entries state entry hentry
      refine ⟨hstate, (h.place_of_ne ?_).trans hplaced⟩
      rintro rfl
      rw [hplaced] at hearly
      cases hearly
  waiting := by
    intro m hm
    rw [hpending]
    by_cases hmn : m = n
    · exact ⟨r.state, _, Js.Table.get_set_self .., hmn.symm⟩
    · rw [h.place_of_ne hmn] at hm
      obtain ⟨state, entry, hentry, rfl⟩ := hinv.waiting m hm
      refine ⟨state, entry, ?_, rfl⟩
      have hplaced := congrArg Prod.snd (hinv.entries state entry hentry).2
      rw [Js.Table.get_set_of_ne (hfresh _ _ hplaced), hentry]
  exchanges := by
    rw [hexchanges]
    intro x hx
    refine h.exchanges hinv hx (hinv.exchange_ne hx ?_ h.later.2)
    rw [hearly]
    nofun
  exchangesOnce := by
    rw [ExchangesOnce, hexchanges]
    exact hinv.exchangesOnce
  settlements := by
    rw [hsettlements, hexchanges]
    intro m result hmem
    rw [h.place_of_ne (hinv.settlement_ne hmem h.later.2)]
    exact hinv.settlements m result hmem
  settlesOnce := by
    rw [hsettlements]
    exact hinv.settlesOnce

end Turns

/-! ## Taking a flow out of `pendingFlows` -/

/-- From `s` to `s'` the states leave `pendingFlows`, and the flows that `pendingFlows` does not
show stay where they are. -/
structure Cuts (s s' : State T) (own : Option ℕ) (states : List String) : Prop where
  inv : Inv s'
  pending : ∀ key, s'.pendingFlows.get key = if key ∈ states then none else s.pendingFlows.get key
  servers : s'.oauthServers = s.oauthServers ∨ s'.oauthServers = [] ∧ s'.pendingFlows.size = 0
  kept : ∀ n phase, own ≠ some n → phase ≠ .waiting → phase ≠ .settled →
    s.phaseAt n = some phase → s'.phaseAt n = some phase
  early : ∀ n phase, phase.stage = .early → s'.phaseAt n = some phase → s.phaseAt n = some phase
  starting : s'.serverStarting = s.serverStarting

section Cuts

variable {s s' s'' : State T} {own : Option ℕ} {states : List String}

theorem Cuts.refl (h : Inv s) : Cuts s s own [] where
  inv := h
  pending key := by rw [if_neg List.not_mem_nil]
  servers := .inl rfl
  kept _ _ _ _ _ hphase := hphase
  early _ _ _ hphase := hphase
  starting := rfl

theorem Cuts.absent (h : Inv s) {state : String} (hget : s.pendingFlows.get state = none) :
    Cuts s s own [state] where
  inv := h
  pending key := by
    split
    · rename_i hmem
      rw [List.mem_singleton.mp hmem, hget]
    · rfl
  servers := .inl rfl
  kept _ _ _ _ _ hphase := hphase
  early _ _ _ hphase := hphase
  starting := rfl

theorem size_eq_zero {table : Js.Table PendingOAuth} :
    table.size = 0 ↔ ∀ key, table.get key = none := by
  constructor
  · exact fun h key => Js.Table.get_of_size_zero h key
  · intro h
    refine List.length_eq_zero_iff.mpr (List.eq_nil_iff_forall_not_mem.mpr ?_)
    rintro ⟨key, entry⟩ hmem
    have hget := Js.Table.get_eq_some.mpr hmem
    rw [h] at hget
    cases hget

theorem Cuts.trans {states' : List String} (h : Cuts s s' own states)
    (h' : Cuts s' s'' own states') : Cuts s s'' own (states ++ states') where
  inv := h'.inv
  pending key := by
    rw [h'.pending, h.pending]
    by_cases hmem : key ∈ states <;> by_cases hmem' : key ∈ states' <;> simp [hmem, hmem']
  servers := by
    rcases h'.servers with heq | hclosed
    · rcases h.servers with heq' | ⟨hnil, hsize⟩
      · exact .inl (heq.trans heq')
      · -- nothing is left to take after the listeners are closed
        refine .inr ⟨heq.trans hnil, size_eq_zero.mpr fun key => ?_⟩
        rw [h'.pending, size_eq_zero.mp hsize]
        exact ite_self none
    · exact .inr hclosed
  kept n phase hown hwaiting hsettled hphase :=
    h'.kept n phase hown hwaiting hsettled (h.kept n phase hown hwaiting hsettled hphase)
  early n phase hearly hphase := h.early n phase hearly (h'.early n phase hearly hphase)
  starting := h'.starting.trans h.starting

theorem phaseAt_congr (h : s'.flows = s.flows) : s'.phaseAt = s.phaseAt := by
  funext n
  rw [phaseAt, phaseAt, h]

theorem Cuts.stopIdle (h : Cuts s s' own states) : Cuts s s'.stopIdle own states where
  inv := h.inv.stopIdle
  pending := by
    rw [stopIdle_pendingFlows]
    exact h.pending
  servers := by
    rw [stopIdle_oauthServers, stopIdle_pendingFlows]
    split
    · rename_i hsize
      exact .inr ⟨rfl, hsize⟩
    · exact h.servers
  kept := by
    rw [phaseAt_congr (stopIdle_flows s')]
    exact h.kept
  early := by
    rw [phaseAt_congr (stopIdle_flows s')]
    exact h.early
  starting := (stopIdle_serverStarting s').trans h.starting

/-- The listeners are closed if and only if nothing is left. -/
def Sweeps (s s' : State T) (own : Option ℕ) (states : List String) : Prop :=
  Cuts s s' own states ∧
    s'.oauthServers = if s'.pendingFlows.size = 0 then [] else s.oauthServers

theorem Cuts.sweeps (h : Cuts s s' own states) : Sweeps s s'.stopIdle own states := by
  refine ⟨h.stopIdle, ?_⟩
  rw [stopIdle_oauthServers, stopIdle_pendingFlows]
  split
  · rfl
  · rename_i hsize
    rcases h.servers with heq | ⟨-, hsize'⟩
    · exact heq
    · exact absurd hsize' hsize

theorem stage_eq_waiting {phase : Phase} (h : phase.stage = .waiting) : phase = .waiting := by
  cases phase <;> first | rfl | cases h

theorem Inv.flow_of_entry (hinv : Inv s) {state : String} {entry : PendingOAuth}
    (hget : s.pendingFlows.get state = some entry) : ∃ flow, s.flows[entry.flow]? = some flow ∧
      flow.phase = .waiting ∧ flow.request = some ⟨state, entry.pkce⟩ := by
  have hplaced := (hinv.entries state entry hget).2
  obtain ⟨flow, hflow, heq⟩ := exists_flow s (n := entry.flow) (by rw [hplaced]; nofun)
  rw [hplaced] at heq
  obtain ⟨hstage, hrequest⟩ := Prod.mk.inj heq
  exact ⟨flow, hflow, stage_eq_waiting hstage.symm, hrequest.symm⟩

theorem turns_setPhase (phase : Phase) {n : ℕ} {flow : Flow} {r : AuthRequest}
    (hflow : s.flows[n]? = some flow) (hrequest : flow.request = some r)
    (hne : flow.phase.stage ≠ phase.stage) (hover : flow.phase.stage ≠ .over)
    (hflows : s'.flows = (s.setPhase n phase).flows) (hrequests : s'.requests = s.requests) :
    Turns s s' n phase.stage r := by
  have hplace : s.place n = (flow.phase.stage, some r) := by
    rw [place, hflow, ← hrequest]
    rfl
  refine ⟨?_, ?_, .inl (congrArg Prod.snd hplace), hrequests⟩
  · rw [place_congr hflows, place_setPhase s hflow, hrequest]
  · rw [hplace]
    exact ⟨hne, hover⟩

/-- What the change of one phase leaves alone. -/
theorem phaseAt_of_setPhase {n : ℕ} {flow : Flow} {phase : Phase} (hflow : s.flows[n]? = some flow)
    (hflows : s'.flows = (s.setPhase n phase).flows) (m : ℕ) :
    s'.phaseAt m = if n = m then some phase else s.phaseAt m := by
  rw [phaseAt_congr hflows, phaseAt_setPhase]
  by_cases hm : n = m
  · subst hm
    rw [if_pos rfl, if_pos rfl, phaseAt, hflow]
    rfl
  · rw [if_neg hm, if_neg hm]

/-- A flow whose entry is there leaves `pendingFlows`. -/
theorem Inv.cuts (hinv : Inv s) (phase : Phase) {state : String} {entry : PendingOAuth}
    (hget : s.pendingFlows.get state = some entry) (hphase : phase.stage ≠ .early) (h : Inv s')
    (hflows : s'.flows = (s.setPhase entry.flow phase).flows)
    (hpending : s'.pendingFlows = s.pendingFlows.delete state)
    (hservers : s'.oauthServers = s.oauthServers)
    (hstarting : s'.serverStarting = s.serverStarting) : Cuts s s' own [state] := by
  obtain ⟨flow, hflow, hwaiting, -⟩ := hinv.flow_of_entry hget
  have hphases := phaseAt_of_setPhase hflow hflows
  have hold : s.phaseAt entry.flow = some .waiting := by
    rw [phaseAt, hflow, ← hwaiting]
    rfl
  refine ⟨h, ?_, .inl hservers, ?_, ?_, hstarting⟩
  · intro key
    rw [hpending, Js.Table.get_delete]
    exact if_congr List.mem_singleton.symm rfl rfl
  · rintro n p - hne - hp
    rw [hphases, if_neg, hp]
    rintro rfl
    rw [hold] at hp
    exact hne (Option.some.inj hp).symm
  · intro n p hearly hp
    rw [hphases] at hp
    split at hp
    · obtain rfl := Option.some.inj hp
      exact absurd hearly hphase
    · exact hp

theorem Inv.cuts_settle (hinv : Inv s) {state : String} {entry : PendingOAuth} {error : String}
    (hget : s.pendingFlows.get state = some entry) :
    Cuts s { s.settle entry.flow (.error error) with pendingFlows := s.pendingFlows.delete state }
      own [state] := by
  obtain ⟨flow, hflow, hwaiting, hrequest⟩ := hinv.flow_of_entry hget
  refine hinv.cuts .settled hget nofun ?_ rfl rfl rfl rfl
  have hturns : Turns s { s.settle entry.flow (.error error) with
      pendingFlows := s.pendingFlows.delete state } entry.flow .over ⟨state, entry.pkce⟩ :=
    turns_setPhase .settled hflow hrequest (by rw [hwaiting]; nofun)
      (by rw [hwaiting]; nofun) rfl rfl
  have hplaced := (hinv.entries state entry hget).2
  refine hturns.fails hinv ?_ (fun _ => congrArg Prod.snd hplaced) (fun key => ?_) rfl rfl
  · rw [hplaced]
    nofun
  · exact Js.Table.get_delete ..

theorem cuts_cancel (hinv : Inv s) (state : String) : Cuts s (s.cancel state) own [state] := by
  unfold cancel
  split
  · rename_i hget
    exact .absent hinv hget
  · rename_i entry hget
    exact (hinv.cuts_settle hget).stopIdle

theorem cuts_foldl_cancel (hinv : Inv s) (states : List String) :
    Cuts s (states.foldl cancel s) own states := by
  induction states generalizing s with
  | nil => exact .refl hinv
  | cons state rest ih =>
      have hcancel : Cuts s (s.cancel state) own [state] := cuts_cancel hinv state
      exact hcancel.trans (ih hcancel.inv)

theorem sweeps_failed (hinv : Inv s) (state : Option String) (error : String) :
    Sweeps s (s.failed state error) own state.toList := by
  unfold failed
  split
  · exact (Cuts.refl hinv).sweeps
  · split
    · rename_i hget
      exact (Cuts.absent hinv hget).sweeps
    · rename_i entry hget
      exact (hinv.cuts_settle hget).sweeps

theorem truthy_eq_some {value : Option String} {text : String} (h : truthy value = some text) :
    value = some text :=
  (Option.filter_eq_some_iff.mp h).1

theorem Inv.cuts_exchange (hinv : Inv s) {state code : String} {entry : PendingOAuth}
    (hget : s.pendingFlows.get state = some entry)
    (hsent : ∃ url ∈ s.requests, url.pathname = "/auth/callback" ∧ url.state = some state ∧
      url.code = some code) :
    Cuts s { s.exchange state code entry with pendingFlows := s.pendingFlows.delete state }
      own [state] := by
  obtain ⟨flow, hflow, hwaiting, hrequest⟩ := hinv.flow_of_entry hget
  refine hinv.cuts .exchanging hget nofun ?_ rfl rfl rfl rfl
  have hturns : Turns s { s.exchange state code entry with
      pendingFlows := s.pendingFlows.delete state } entry.flow .exchanging ⟨state, entry.pkce⟩ :=
    turns_setPhase .exchanging hflow hrequest (by rw [hwaiting]; nofun)
      (by rw [hwaiting]; nofun) rfl rfl
  exact hturns.delivers hinv (hinv.entries state entry hget).2
    (fun key => Js.Table.get_delete ..) rfl rfl rfl rfl rfl hsent rfl rfl

theorem exchange_flowCleanup (s : State T) (state code : String) (entry : PendingOAuth) :
    (s.flowCleanup state).exchange state code entry =
      { s.exchange state code entry with
        pendingFlows := s.pendingFlows.delete state : State T }.stopIdle := by
  unfold flowCleanup stopIdle flowCount
  dsimp only [exchange, setPhase]
  split <;> rfl

/-- A request takes the states that it ends, or does nothing. -/
theorem handler_sweeps (own : Option ℕ) (hinv : Inv s) {url : Url} (hurl : url ∈ s.requests) :
    (∃ states, s.taken (.request url) = some states ∧ Sweeps s (s.handler url).1 own states) ∨
      s.taken (.request url) = none ∧ (s.handler url).1 = s := by
  have hidle : Sweeps s s.stopIdle own [] := (Cuts.refl hinv).sweeps
  unfold handler
  simp only [taken]
  split
  · rename_i hcallback
    left
    cases herror : truthy url.error with
    | some error => exact ⟨_, if_pos (.inl rfl), sweeps_failed hinv _ _⟩
    | none =>
        cases hcode : truthy url.code with
        | none =>
            -- without a code nothing ends, whatever the state
            refine ⟨[], if_neg (by simp), ?_⟩
            cases truthy url.state <;> exact hidle
        | some code =>
            cases hstate : truthy url.state with
            | none => exact ⟨[], if_pos (.inr rfl), hidle⟩
            | some state =>
                refine ⟨[state], if_pos (.inr rfl), ?_⟩
                cases hget : s.pendingFlows.get state with
                | none =>
                    simp only [hget]
                    exact (Cuts.absent hinv hget).sweeps
                | some entry =>
                    simp only [hget]
                    rw [exchange_flowCleanup]
                    exact (hinv.cuts_exchange hget ⟨url, hurl, hcallback, truthy_eq_some hstate,
                      truthy_eq_some hcode⟩).sweeps
  · split
    · left
      cases truthy url.state with
      | some state => exact ⟨[state], rfl, (cuts_foldl_cancel hinv [state]).sweeps⟩
      | none => exact ⟨_, rfl, (cuts_foldl_cancel hinv _).sweeps⟩
    · exact .inr ⟨rfl, rfl⟩

theorem settle_flowCleanup (s : State T) (n : ℕ) (state : String) (result : Except String T) :
    (s.flowCleanup state).settle n result =
      { s.settle n result with
        pendingFlows := s.pendingFlows.delete state : State T }.stopIdle := by
  unfold flowCleanup stopIdle flowCount
  dsimp only [settle, setPhase]
  split <;> rfl

theorem setPhase_flowCleanup (s : State T) (n : ℕ) (state : String) (phase : Phase) :
    (s.flowCleanup state).setPhase n phase =
      { s.setPhase n phase with
        pendingFlows := s.pendingFlows.delete state : State T }.stopIdle := by
  unfold flowCleanup stopIdle flowCount
  dsimp only [setPhase]
  split <;> rfl

/-- The entry under a flow's own state is the flow's. -/
theorem Inv.entry_own (hinv : Inv s) {n : ℕ} {flow : Flow} {r : AuthRequest} {entry : PendingOAuth}
    (hflow : s.flows[n]? = some flow) (hrequest : flow.request = some r)
    (hget : s.pendingFlows.get r.state = some entry) : entry.flow = n ∧ flow.phase = .waiting := by
  obtain ⟨flow', hflow', hwaiting, hrequest'⟩ := hinv.flow_of_entry hget
  have hplaced : (s.place n).2 = some r := by
    rw [place, hflow]
    exact hrequest
  have hsame : entry.flow = n :=
    hinv.distinct _ n _ r (congrArg Prod.snd (hinv.entries _ _ hget).2) hplaced rfl
  subst hsame
  rw [hflow] at hflow'
  obtain rfl := Option.some.inj hflow'
  exact ⟨rfl, hwaiting⟩

theorem expire_sweeps (own : Option ℕ) (hinv : Inv s) (n : ℕ) (error : String) :
    (∃ states, s.taken (.timeout n) = some states ∧ Sweeps s (s.expire n error) own states) ∨
      s.taken (.timeout n) = none ∧ s.expire n error = s := by
  simp only [taken, expire]
  cases hflow : s.flows[n]? with
  | none => exact .inr ⟨rfl, rfl⟩
  | some flow =>
      obtain ⟨kind, phase, aborted, request⟩ := flow
      cases request with
      | none => exact .inr ⟨rfl, rfl⟩
      | some r =>
          dsimp only
          by_cases hwatched : phase.watched = true
          · rw [if_pos hwatched]
            unfold giveUp
            cases hget : s.pendingFlows.get r.state with
            | none => exact .inr ⟨if_neg fun h => Bool.false_ne_true h.2, rfl⟩
            | some entry =>
                refine .inl ⟨_, if_pos ⟨hwatched, rfl⟩, ?_⟩
                obtain ⟨rfl, -⟩ := hinv.entry_own hflow rfl hget
                dsimp only
                rw [settle_flowCleanup]
                exact (hinv.cuts_settle hget).sweeps
          · rw [if_neg hwatched]
            exact .inr ⟨if_neg fun h => hwatched h.1, rfl⟩

/-- A flow that is over has no entry. -/
theorem Inv.get_of_over (hinv : Inv s) {n : ℕ} {flow : Flow} {r : AuthRequest}
    (hflow : s.flows[n]? = some flow) (hrequest : flow.request = some r)
    (hphase : flow.phase ≠ .waiting) : s.pendingFlows.get r.state = none := by
  cases hget : s.pendingFlows.get r.state with
  | none => rfl
  | some entry => exact absurd (hinv.entry_own hflow hrequest hget).2 hphase

theorem Inv.cuts_finish (hinv : Inv s) {n : ℕ} {flow : Flow} {r : AuthRequest}
    (hflow : s.flows[n]? = some flow) (hrequest : flow.request = some r)
    (hphase : flow.phase = .settled) :
    Cuts s { s.setPhase n .finished with pendingFlows := s.pendingFlows.delete r.state }
      own [r.state] := by
  have habsent := hinv.get_of_over hflow hrequest (by rw [hphase]; nofun)
  have hold : s.phaseAt n = some .settled := by
    rw [phaseAt, hflow, ← hphase]
    rfl
  have hphases := phaseAt_of_setPhase hflow (Eq.refl (s.setPhase n .finished).flows)
  refine ⟨hinv.congr ?_ ?_ rfl rfl (List.Subset.refl _), ?_, .inl rfl, ?_, ?_, rfl⟩
  · refine (place_congr (s := s.setPhase n .finished) rfl).trans ?_
    rw [place_setPhase s hflow]
    refine Function.update_eq_self_iff.mpr ?_
    rw [place, hflow, Option.map_some, Option.getD_some, hphase]
    rfl
  · rw [Js.Table.delete_of_absent habsent]
  · exact fun key => (Js.Table.get_delete ..).trans (if_congr List.mem_singleton.symm rfl rfl)
  · rintro m p - - hne hp
    refine (hphases m).trans ?_
    rw [if_neg, hp]
    rintro rfl
    rw [hold] at hp
    exact hne (Option.some.inj hp).symm
  · intro m p hearly hp
    have hlook := (hphases m).symm.trans hp
    split at hlook
    · obtain rfl := Option.some.inj hlook
      cases hearly
    · exact hlook

/-- The `finally` of a flow that is over. -/
theorem Inv.cuts_cleanup (hinv : Inv s) {n : ℕ} {flow : Flow} {r : AuthRequest}
    (hflow : s.flows[n]? = some flow) (hrequest : flow.request = some r)
    (hphase : flow.phase = .settled) : Sweeps s (s.flowCleanup r.state) own [r.state] := by
  have habsent := hinv.get_of_over hflow hrequest (by rw [hphase]; nofun)
  have hsame : ({ s with pendingFlows := s.pendingFlows.delete r.state } : State T) = s := by
    rw [Js.Table.delete_of_absent habsent]
  rw [flowCleanup, hsame]
  exact (Cuts.absent hinv habsent).sweeps

/-! ## A flow goes on after `generatePKCE` -/

/-- No flow has drawn the state yet. -/
def Fresh (s : State T) (state : String) : Prop :=
  ∀ m r, (s.place m).2 = some r → r.state ≠ state

theorem fresh_of_any {state : String}
    (h : ¬ (s.flows.any fun flow => flow.request.any fun request => request.state = state) = true) :
    s.Fresh state := by
  intro m r hplaced heq
  refine h (List.any_eq_true.mpr ?_)
  rw [place] at hplaced
  cases hflow : s.flows[m]? with
  | none =>
      rw [hflow] at hplaced
      cases hplaced
  | some flow =>
      rw [hflow] at hplaced
      have hrequest : flow.request = some r := hplaced
      refine ⟨flow, List.mem_of_getElem? hflow, ?_⟩
      rw [hrequest]
      exact decide_eq_true heq

/-- The flow `n` leaves `generatePKCE` with a request. -/
theorem turns_authorize (phase : Phase) {n : ℕ} {flow : Flow} {r : AuthRequest}
    (hflow : s.flows[n]? = some flow) (hgenerating : flow.phase = .generating)
    (hfresh : s.Fresh r.state) (hphase : phase.stage ≠ .early)
    (hflows : ∃ flow' : Flow, s'.flows = s.flows.set n flow' ∧ flow'.phase = phase ∧
      flow'.request = some r)
    (hrequests : s'.requests = s.requests) : Turns s s' n phase.stage r := by
  obtain ⟨flow', hflows, rfl, hrequest⟩ := hflows
  have hlt := (List.getElem?_eq_some_iff.mp hflow).1
  have hearly : (s.place n).1 = .early := by
    rw [place, hflow, Option.map_some, Option.getD_some, hgenerating]
    rfl
  refine ⟨?_, ⟨?_, ?_⟩, .inr hfresh, hrequests⟩
  · funext m
    rw [place, hflows]
    by_cases hm : n = m
    · subst hm
      rw [List.getElem?_set_self hlt, Function.update_self, Option.map_some, Option.getD_some,
        hrequest]
    · rw [List.getElem?_set_ne hm, Function.update_of_ne (Ne.symm hm), place]
  · rw [hearly]
    exact hphase.symm
  · rw [hearly]
    nofun

theorem set_setPhase {n : ℕ} {flow flow' : Flow} (hflow : s.flows[n]? = some flow)
    (phase : Phase) :
    ({ s with flows := s.flows.set n flow' }.setPhase n phase).flows =
      s.flows.set n { flow' with phase := phase } := by
  have hlt := (List.getElem?_eq_some_iff.mp hflow).1
  rw [setPhase, List.modify_eq_set_getElem?, List.getElem?_set_self hlt]
  exact List.set_set ..

theorem authorize_waits {n : ℕ} {flow : Flow} {pkce : PkceCodes} {state : String}
    (h : flow.kind = .accountLogin → flow.aborted = false) :
    s.authorize n flow pkce state =
      { { s with flows := s.flows.set n { flow with request := some ⟨state, pkce⟩ } }.setPhase n
          .waiting with
        pendingFlows := s.pendingFlows.set state ⟨pkce, state, n⟩ } := by
  unfold authorize
  cases hkind : flow.kind with
  | browser => rfl
  | accountLogin =>
      dsimp only
      rw [h hkind]
      rfl

theorem Inv.authorizes (hinv : Inv s) {n : ℕ} {flow : Flow} {pkce : PkceCodes} {state : String}
    (hflow : s.flows[n]? = some flow) (hgenerating : flow.phase = .generating)
    (hfresh : s.Fresh state) (h : flow.kind = .accountLogin → flow.aborted = false) :
    Inv (s.authorize n flow pkce state) := by
  rw [authorize_waits h]
  have hturns : Turns s ({ { s with flows := s.flows.set n { flow with
      request := some ⟨state, pkce⟩ } }.setPhase n .waiting with
        pendingFlows := s.pendingFlows.set state ⟨pkce, state, n⟩ }) n .waiting ⟨state, pkce⟩ :=
    turns_authorize .waiting hflow hgenerating hfresh nofun
      ⟨_, set_setPhase hflow .waiting, rfl, rfl⟩ rfl
  refine hturns.registers hinv ?_ hfresh rfl rfl rfl
  rw [place, hflow, Option.map_some, Option.getD_some, hgenerating]
  rfl

/-- A flow fails before it registers. -/
theorem Inv.cuts_unregistered (hinv : Inv s) {n : ℕ} {flow flow' : Flow} {r : AuthRequest}
    {error : String} (hflow : s.flows[n]? = some flow) (hgenerating : flow.phase = .generating)
    (hfresh : s.Fresh r.state) (hphase : flow'.phase = .finished) (hrequest : flow'.request = some r)
    (hflows : s'.flows = s.flows.set n flow')
    (hpending : s'.pendingFlows = s.pendingFlows.delete r.state)
    (hservers : s'.oauthServers = s.oauthServers) (hstarting : s'.serverStarting = s.serverStarting)
    (hexchanges : s'.exchanges = s.exchanges) (hrequests : s'.requests = s.requests)
    (hsettlements : s'.settlements = (n, .error error) :: s.settlements) :
    Cuts s s' (some n) [r.state] ∧ s'.phaseAt n = some .finished := by
  have hlt := (List.getElem?_eq_some_iff.mp hflow).1
  have hearly : (s.place n).1 = .early := by
    rw [place, hflow, Option.map_some, Option.getD_some, hgenerating]
    rfl
  have hphases : ∀ m, s'.phaseAt m = if n = m then some .finished else s.phaseAt m := by
    intro m
    rw [phaseAt, hflows]
    by_cases hm : n = m
    · subst hm
      rw [List.getElem?_set_self hlt, if_pos rfl, ← hphase]
      rfl
    · rw [List.getElem?_set_ne hm, if_neg hm, phaseAt]
  refine ⟨⟨?_, fun key => ?_, .inl hservers, ?_, ?_, hstarting⟩, (hphases n).trans (if_pos rfl)⟩
  · have hturns := turns_authorize .finished hflow hgenerating hfresh nofun
      ⟨_, hflows, hphase, hrequest⟩ hrequests
    refine hturns.fails hinv ?_ ?_ (fun key => ?_) hexchanges hsettlements
    · rw [hearly]
      nofun
    · rw [hearly]
      nofun
    · rw [hpending, Js.Table.get_delete]
  · rw [hpending, Js.Table.get_delete]
    exact if_congr List.mem_singleton.symm rfl rfl
  · rintro m p hown - - hp
    rw [hphases, if_neg fun hm => hown (congrArg some hm), hp]
  · intro m p hp hm
    rw [hphases] at hm
    split at hm
    · obtain rfl := Option.some.inj hm
      cases hp
    · exact hm

/-- A login whose signal is aborted already has no entry to clean up. -/
theorem Inv.sweeps_authorize (hinv : Inv s) {n : ℕ} {flow : Flow} (pkce : PkceCodes)
    {state : String} (hflow : s.flows[n]? = some flow) (hgenerating : flow.phase = .generating)
    (hfresh : s.Fresh state) (hkind : flow.kind = .accountLogin) (haborted : flow.aborted = true) :
    Sweeps s (s.authorize n flow pkce state) (some n) [state] ∧
      (s.authorize n flow pkce state).phaseAt n = some .finished := by
  have hlt := (List.getElem?_eq_some_iff.mp hflow).1
  unfold authorize
  rw [hkind]
  dsimp only
  rw [if_pos haborted, setPhase_flowCleanup]
  have hflows : ({ (({ s with flows := s.flows.set n { flow with
      request := some ⟨state, pkce⟩ } } : State T).settle n (.error "Login cancelled")).setPhase n
        .finished with pendingFlows := s.pendingFlows.delete state } : State T).flows =
          s.flows.set n { flow with request := some ⟨state, pkce⟩, phase := .finished } := by
    dsimp only
    rw [setPhase, settle, set_setPhase hflow, List.modify_eq_set_getElem?,
      List.getElem?_set_self hlt]
    exact List.set_set ..
  have hcuts := hinv.cuts_unregistered (r := ⟨state, pkce⟩) hflow hgenerating hfresh rfl rfl hflows
    rfl rfl rfl rfl rfl rfl
  rw [hkind] at hcuts
  refine ⟨hcuts.1.sweeps, ?_⟩
  rw [phaseAt_congr (stopIdle_flows _)]
  exact hcuts.2

/-! ## Steps -/

theorem Sweeps.of_cuts {s₁ : State T} (h : Cuts s s₁ own [])
    (hservers : s₁.oauthServers = s.oauthServers) (h' : Sweeps s₁ s' own states) :
    Sweeps s s' own states :=
  ⟨h.trans h'.1, hservers ▸ h'.2⟩

theorem Inv.cuts_requests (hinv : Inv s) (url : Url) :
    Cuts s { s with requests := url :: s.requests } own [] where
  inv := hinv.congr rfl rfl rfl rfl (List.subset_cons_self _ _)
  pending key := by rw [if_neg List.not_mem_nil]
  servers := .inl rfl
  kept _ _ _ _ _ hphase := hphase
  early _ _ _ hphase := hphase
  starting := rfl

/-- Only the signal of a flow is aborted. -/
theorem Inv.cuts_aborted (hinv : Inv s) {n : ℕ} {flow : Flow} (hflow : s.flows[n]? = some flow) :
    Cuts s { s with flows := s.flows.set n { flow with aborted := true } } own [] := by
  have hlt := (List.getElem?_eq_some_iff.mp hflow).1
  have hsame : ∀ {β : Type} (f : Flow → β), f { flow with aborted := true } = f flow → ∀ m : ℕ,
      (s.flows.set n { flow with aborted := true })[m]?.map f = s.flows[m]?.map f := by
    intro β f hf m
    by_cases hm : n = m
    · subst hm
      rw [List.getElem?_set_self hlt, hflow, Option.map_some, Option.map_some, hf]
    · rw [List.getElem?_set_ne hm]
  have hphases : ({ s with flows := s.flows.set n { flow with aborted := true } } : State T).phaseAt =
      s.phaseAt := funext (hsame (·.phase) rfl)
  refine ⟨hinv.congr (funext fun m => ?_) rfl rfl rfl (List.Subset.refl _), fun key => ?_, .inl rfl,
    ?_, ?_, rfl⟩
  · exact congrArg (Option.getD · _) (hsame (fun flow => (flow.phase.stage, flow.request)) rfl m)
  · rw [if_neg List.not_mem_nil]
  · rw [hphases]
    exact fun _ _ _ _ _ hphase => hphase
  · rw [hphases]
    exact fun _ _ _ hphase => hphase

theorem step_generated {n : ℕ} {pkce : PkceCodes} {state : String}
    (hstep : s.step (.generated n (some (pkce, state))) = some s') :
    ∃ flow, s.flows[n]? = some flow ∧ flow.phase = .generating ∧ s.Fresh state ∧
      s' = s.authorize n flow pkce state := by
  simp only [step] at hstep
  split at hstep
  · contradiction
  · rename_i flow kind aborted request pkce' state' hflow hdrawn
    obtain ⟨rfl, rfl⟩ := Prod.mk.inj (Option.some.inj hdrawn)
    split at hstep
    · cases hstep
    · rename_i hfresh
      obtain rfl := Option.some.inj hstep
      exact ⟨_, hflow, rfl, fresh_of_any hfresh, rfl⟩
  · cases hstep

theorem step_abort {n : ℕ} (hstep : s.step (.abort n) = some s') :
    ∃ flow, s.flows[n]? = some flow ∧
      s' = { s with flows := s.flows.set n { flow with aborted := true } }.expire n
        "Login cancelled" := by
  simp only [step] at hstep
  split at hstep
  · rename_i flow phase request hflow
    exact ⟨_, hflow, (Option.some.inj hstep).symm⟩
  · cases hstep

theorem step_finish {n : ℕ} (hstep : s.step (.finish n) = some s') :
    ∃ flow r, s.flows[n]? = some flow ∧ flow.phase = .settled ∧ flow.request = some r ∧
      (s' = (s.flowCleanup r.state).setPhase n .finished ∨ s' = s.flowCleanup r.state) := by
  simp only [step] at hstep
  split at hstep
  · rename_i aborted r hflow
    exact ⟨_, r, hflow, rfl, rfl, .inl (Option.some.inj hstep).symm⟩
  · rename_i aborted r hflow
    exact ⟨_, r, hflow, rfl, rfl, .inr (Option.some.inj hstep).symm⟩
  · cases hstep

theorem taken_aborted {n : ℕ} {flow : Flow} (hflow : s.flows[n]? = some flow) :
    { s with flows := s.flows.set n { flow with aborted := true } }.taken (.timeout n : Event T) =
      s.taken (.abort n) := by
  simp only [taken]
  rw [List.getElem?_set_self (List.getElem?_eq_some_iff.mp hflow).1, hflow]
  obtain ⟨kind, phase, aborted, request⟩ := flow
  cases request <;> rfl

/-- A step that looks whether a flow is left. -/
theorem step_sweeps (hinv : Inv s) {e : Event T} (htaken : s.taken e = some states)
    (hstep : s.step e = some s') :
    Sweeps s s' e.own states ∧ ∀ n, e.own = some n → s'.phaseAt n = some .finished := by
  cases e with
  | begin | listened4 | listened6 | cleared | started | exchanged => cases htaken
  | generated n result =>
      cases result with
      | none => cases htaken
      | some drawn =>
          obtain ⟨pkce, state⟩ := drawn
          obtain ⟨flow, hflow, hgenerating, hfresh, rfl⟩ := step_generated hstep
          obtain ⟨kind, phase, aborted, request⟩ := flow
          simp only [taken, hflow] at htaken
          split at htaken
          · rename_i heq
            obtain ⟨rfl, -, rfl, -⟩ := Flow.mk.inj (Option.some.inj heq)
            obtain rfl := Option.some.inj htaken
            obtain ⟨hsweeps, hfinished⟩ :=
              hinv.sweeps_authorize pkce hflow hgenerating hfresh rfl rfl
            refine ⟨hsweeps, fun m hm => ?_⟩
            obtain rfl := Option.some.inj hm
            exact hfinished
          · cases htaken
  | request url =>
      simp only [step, Option.some.injEq] at hstep
      subst hstep
      refine ⟨?_, nofun⟩
      have hcuts : Cuts s { s with requests := url :: s.requests } none [] := hinv.cuts_requests url
      rcases handler_sweeps none hcuts.inv (List.mem_cons_self (a := url)) with
        ⟨states', htaken', hsweeps⟩ | ⟨htaken', -⟩
      · obtain rfl := Option.some.inj (htaken'.symm.trans htaken)
        exact hsweeps.of_cuts hcuts rfl
      · cases htaken'.symm.trans htaken
  | timeout n =>
      obtain rfl := Option.some.inj hstep
      refine ⟨?_, nofun⟩
      rcases expire_sweeps none hinv n _ with ⟨states', htaken', hsweeps⟩ | ⟨htaken', -⟩
      · obtain rfl := Option.some.inj (htaken'.symm.trans htaken)
        exact hsweeps
      · cases htaken'.symm.trans htaken
  | abort n =>
      refine ⟨?_, nofun⟩
      obtain ⟨flow, hflow, rfl⟩ := step_abort hstep
      have hcuts : Cuts s { s with flows := s.flows.set n { flow with aborted := true } } none [] :=
        hinv.cuts_aborted hflow
      have hsame := (taken_aborted hflow).trans htaken
      rcases expire_sweeps none hcuts.inv n "Login cancelled" with
        ⟨states', htaken', hsweeps⟩ | ⟨htaken', -⟩
      · obtain rfl := Option.some.inj (htaken'.symm.trans hsame)
        exact hsweeps.of_cuts hcuts rfl
      · cases htaken'.symm.trans hsame
  | finish n =>
      refine ⟨?_, nofun⟩
      obtain ⟨flow, r, hflow, hsettled, hrequest, hend⟩ := step_finish hstep
      simp only [taken, hflow] at htaken
      obtain ⟨kind, phase, aborted, request⟩ := flow
      obtain rfl : request = some r := hrequest
      obtain rfl := Option.some.inj htaken
      rcases hend with rfl | rfl
      · rw [setPhase_flowCleanup]
        exact (hinv.cuts_finish hflow rfl hsettled).sweeps
      · exact hinv.cuts_cleanup hflow rfl hsettled

end Cuts

/-- The flow that starts the listeners goes on after its own `finally`. -/
def Starts (s : State T) : Prop :=
  ∀ starting n, s.serverStarting = some (starting, n) → s.phaseAt n = some starting.phase

/-- A step that does not look whether a flow is left. -/
structure Quiet (s s' : State T) : Prop where
  inv : Inv s'
  servers : s.oauthServers ≠ [] → s'.oauthServers ≠ []
  listens : ∀ n phase, phase.listens → s'.phaseAt n = some phase →
    s'.oauthServers ≠ [] ∨ ∃ m p, p.listens ∧ s.phaseAt m = some p
  starts : s'.Starts

section Quiet

variable {s s' : State T}

/-- The promise of `serverStarting` is over. -/
theorem quiet_settleStarting (starting : Starting) (hinv : Inv s) {n : ℕ} {hosts : List Host}
    (hn : s.phaseAt n = some .starting) (hhosts : s.oauthServers ≠ [] → hosts ≠ [])
    (hlistens : starting.phase.listens → hosts ≠ []) (hearly : starting.phase.stage = .early) :
    Quiet s ({ s with oauthServers := hosts }.settleStarting n starting starting.phase) := by
  have hphases : ∀ m, ({ s with oauthServers := hosts }.settleStarting n starting
      starting.phase).phaseAt m =
        (s.phaseAt m).map fun p => if p = .starting then starting.phase else p := by
    intro m
    rw [phaseAt, settleStarting, List.getElem?_map, phaseAt, Option.map_map, Option.map_map]
    refine congrArg (Option.map · _) (funext fun flow => ?_)
    dsimp only [Function.comp_apply]
    split <;> rfl
  refine ⟨hinv.congr (funext fun m => ?_) rfl rfl rfl (List.Subset.refl _), hhosts, ?_, ?_⟩
  · rw [place, settleStarting, List.getElem?_map, place, Option.map_map]
    refine congrArg (fun f => (Option.map f _).getD _) (funext fun flow => ?_)
    dsimp only [Function.comp_apply]
    split
    · rename_i hphase
      rw [hphase, hearly]
      rfl
    · rfl
  · intro m p hp hm
    rw [hphases, Option.map_eq_some_iff] at hm
    obtain ⟨q, hq, rfl⟩ := hm
    split at hp
    · exact .inl (hlistens hp)
    · exact .inr ⟨m, q, hp, hq⟩
  · intro starting' m hm
    obtain ⟨rfl, rfl⟩ := Prod.mk.inj (Option.some.inj hm)
    rw [hphases, hn]
    rfl

/-- One flow that has not registered goes on, and stays unregistered. -/
theorem quiet_setPhase (hinv : Inv s) (hstarts : s.Starts) {n : ℕ} {flow : Flow} (phase : Phase)
    (hflow : s.flows[n]? = some flow) (hstage : flow.phase.stage = phase.stage)
    (hlistens : phase.listens → flow.phase.listens)
    (hother : s.serverStarting.map Prod.snd ≠ some n) : Quiet s (s.setPhase n phase) := by
  have hphases := phaseAt_of_setPhase hflow (Eq.refl (s.setPhase n phase).flows)
  refine ⟨hinv.congr ?_ rfl rfl rfl (List.Subset.refl _), id, ?_, ?_⟩
  · rw [place_setPhase s hflow, ← hstage]
    refine Function.update_eq_self_iff.mpr ?_
    rw [place, hflow]
    rfl
  · intro m p hp hm
    rw [hphases] at hm
    split at hm
    · obtain rfl := Option.some.inj hm
      refine .inr ⟨n, flow.phase, hlistens hp, ?_⟩
      rw [phaseAt, hflow]
      rfl
    · exact .inr ⟨m, p, hp, hm⟩
  · intro starting m hm
    have hne : n ≠ m := by
      rintro rfl
      exact hother (congrArg (Option.map Prod.snd) hm)
    rw [hphases, if_neg hne]
    exact hstarts starting m hm

/-- A flow that is past `startOAuthServer` did not start the listeners, or is done with it. -/
theorem Starts.ne {n : ℕ} (phase : Phase) (h : s.Starts) (hphase : s.phaseAt n = some phase)
    (hpast : ∀ starting : Starting, starting.phase ≠ phase) :
    s.serverStarting.map Prod.snd ≠ some n := by
  intro heq
  obtain ⟨⟨starting, m⟩, hstarting, rfl⟩ := Option.map_eq_some_iff.mp heq
  rw [h starting m hstarting] at hphase
  exact hpast starting (Option.some.inj hphase)

theorem Cuts.starts {own : Option ℕ} {states : List String} (h : Cuts s s' own states)
    (hstarts : s.Starts) (hown : ∀ n, own = some n → s.serverStarting.map Prod.snd ≠ some n) :
    s'.Starts := by
  intro starting n hn
  rw [h.starting] at hn
  refine h.kept n _ ?_ ?_ ?_ (hstarts starting n hn)
  · intro heq
    exact hown n heq (congrArg (Option.map Prod.snd) hn)
  · cases starting <;> nofun
  · cases starting <;> nofun

/-- A flow that waits now waited before. -/
theorem Cuts.waiting {own : Option ℕ} {states : List String} (h : Cuts s s' own states)
    (hinv : Inv s) {n : ℕ} (hwaiting : s'.phaseAt n = some .waiting) :
    s.phaseAt n = some .waiting ∧ s'.pendingFlows.size ≠ 0 := by
  obtain ⟨state, entry, hget, rfl⟩ := h.inv.waiting n (place_of_phaseAt s' hwaiting)
  constructor
  · have hget' := hget
    rw [h.pending] at hget'
    split at hget'
    · cases hget'
    · obtain ⟨flow, hflow, hphase, -⟩ := hinv.flow_of_entry hget'
      rw [phaseAt, hflow, ← hphase]
      rfl
  · intro hsize
    rw [size_eq_zero.mp hsize] at hget
    cases hget

theorem Cuts.quiet (h : Cuts s s' none []) (hinv : Inv s)
    (hservers : s'.oauthServers = s.oauthServers) (hstarts : s.Starts) : Quiet s s' where
  inv := h.inv
  servers := by
    rw [hservers]
    exact id
  listens := by
    intro n phase hlistens hphase
    refine .inr ⟨n, phase, hlistens, ?_⟩
    cases phase with
    | granted | generating => exact h.early n _ rfl hphase
    | waiting => exact (h.waiting hinv hphase).1
    | _ => cases hlistens
  starts := h.starts hstarts nofun

/-- What a call of `startOAuthServer` leaves alone, and what it hands out. -/
structure Started (s s₁ : State T) (phase : Phase) : Prop where
  early : phase.stage = .early
  pending : s₁.pendingFlows = s.pendingFlows
  exchanges : s₁.exchanges = s.exchanges
  settlements : s₁.settlements = s.settlements
  requests : s₁.requests = s.requests
  servers : s₁.oauthServers = s.oauthServers
  listens : phase.listens → s.oauthServers ≠ [] ∨ ∃ m p, p.listens ∧ s.phaseAt m = some p
  starting : s₁.serverStarting = s.serverStarting ∨
    s₁.serverStarting = some (.listen4, s.flows.length) ∧ phase = .starting

theorem startOAuthServer_started (hstarts : s.Starts) :
    Started s (s.startOAuthServer s.flows.length).1 (s.startOAuthServer s.flows.length).2 := by
  unfold startOAuthServer
  split
  · rename_i hservers
    exact ⟨rfl, rfl, rfl, rfl, rfl, rfl, fun _ => .inl (List.ne_nil_of_length_pos hservers), .inl rfl⟩
  · split
    · -- the listeners are there, as the flow that started them has not gone on
      rename_i n hresolved
      exact ⟨rfl, rfl, rfl, rfl, rfl, rfl, fun _ => .inr ⟨n, _, rfl, hstarts _ _ hresolved⟩, .inl rfl⟩
    · exact ⟨rfl, rfl, rfl, rfl, rfl, rfl, nofun, .inl rfl⟩
    · exact ⟨rfl, rfl, rfl, rfl, rfl, rfl, nofun, .inl rfl⟩
    · exact ⟨rfl, rfl, rfl, rfl, rfl, rfl, nofun, .inr ⟨rfl, rfl⟩⟩

theorem Started.quiet {s₁ : State T} {phase : Phase} (h : Started s s₁ phase) (hinv : Inv s)
    (hstarts : s.Starts) (kind : Kind) :
    Quiet s { s₁ with flows := s.flows ++ [{ kind, phase }] } := by
  have hflows : ∀ m : ℕ, (s.flows ++ [({ kind, phase } : Flow)])[m]? =
      if m = s.flows.length then some { kind, phase } else s.flows[m]? := by
    intro m
    split
    · rename_i hm
      rw [hm, List.getElem?_concat_length]
    · rename_i hm
      rcases Nat.lt_or_gt_of_ne hm with hlt | hgt
      · rw [List.getElem?_append_left hlt]
      · rw [List.getElem?_eq_none (by rw [List.length_append]; exact hgt),
          List.getElem?_eq_none hgt.le]
  have hnone : s.flows[s.flows.length]? = none := List.getElem?_eq_none le_rfl
  refine ⟨hinv.congr (funext fun m => ?_) (congrArg Js.Table.get h.pending) h.exchanges
    h.settlements (fun url hurl => h.requests ▸ hurl), fun hopen => h.servers ▸ hopen, ?_, ?_⟩
  · rw [place, hflows, place]
    split
    · rename_i hm
      rw [hm, hnone, Option.map_some, Option.getD_some, h.early]
      rfl
    · rfl
  · intro m p hp hm
    rw [phaseAt, hflows] at hm
    split at hm
    · obtain rfl := Option.some.inj hm
      rcases h.listens hp with hopen | hother
      · exact .inl (h.servers ▸ hopen)
      · exact .inr hother
    · exact .inr ⟨m, p, hp, hm⟩
  · intro starting m hm
    rw [phaseAt, hflows]
    rcases h.starting with hsame | ⟨hnew, hphase⟩
    · have hold := hstarts starting m (hsame.symm.trans hm)
      rw [if_neg]
      · exact hold
      · rintro rfl
        rw [phaseAt, hnone] at hold
        cases hold
    · obtain ⟨rfl, rfl⟩ := Prod.mk.inj (Option.some.inj (hnew.symm.trans hm))
      rw [if_pos rfl, Option.map_some, hphase]
      rfl

/-- A flow registers: it had the listeners before. -/
theorem quiet_authorize (hinv : Inv s) (hstarts : s.Starts) {n : ℕ} {flow : Flow} {pkce : PkceCodes}
    {state : String} (hflow : s.flows[n]? = some flow) (hgenerating : flow.phase = .generating)
    (hfresh : s.Fresh state) (h : flow.kind = .accountLogin → flow.aborted = false) :
    Quiet s (s.authorize n flow pkce state) := by
  have hlt := (List.getElem?_eq_some_iff.mp hflow).1
  have hphase : s.phaseAt n = some .generating := by
    rw [phaseAt, hflow, ← hgenerating]
    rfl
  have hphases : ∀ m, (s.authorize n flow pkce state).phaseAt m =
      if n = m then some .waiting else s.phaseAt m := by
    intro m
    rw [authorize_waits h, phaseAt]
    refine (congrArg (Option.map _ ·[m]?) (set_setPhase hflow .waiting)).trans ?_
    by_cases hm : n = m
    · subst hm
      rw [List.getElem?_set_self hlt, if_pos rfl]
      rfl
    · rw [List.getElem?_set_ne hm, if_neg hm, phaseAt]
  have hservers : (s.authorize n flow pkce state).oauthServers = s.oauthServers := by
    rw [authorize_waits h]
    rfl
  refine ⟨hinv.authorizes hflow hgenerating hfresh h, fun hopen => hservers ▸ hopen, ?_, ?_⟩
  · intro m p hp hm
    rw [hphases] at hm
    split at hm
    · exact .inr ⟨n, _, rfl, hphase⟩
    · exact .inr ⟨m, p, hp, hm⟩
  · intro starting m hm
    have hstarting : (s.authorize n flow pkce state).serverStarting = s.serverStarting := by
      rw [authorize_waits h]
      rfl
    rw [hstarting] at hm
    rw [hphases, if_neg, hstarts starting m hm]
    rintro rfl
    refine hstarts.ne _ hphase ?_ (congrArg (Option.map Prod.snd) hm)
    rintro (_ | _ | _ | _) <;> nofun

/-- The answer of the token endpoint. -/
theorem quiet_exchanged (hinv : Inv s) (hstarts : s.Starts) {i : ℕ} {x : Exchange T}
    {result : Except String T} (hx : s.exchanges[i]? = some x) (hresult : x.result = none) :
    Quiet s ({ s with exchanges := s.exchanges.set i { x with result := some result } }.settle
      x.entry.flow result) := by
  obtain ⟨-, hplaced, -⟩ := hinv.exchanges x (List.mem_of_getElem? hx)
  rw [hresult] at hplaced
  obtain ⟨flow, hflow, heq⟩ := exists_flow s (n := x.entry.flow) (by rw [hplaced]; nofun)
  rw [hplaced] at heq
  obtain ⟨hstage, hrequest⟩ := Prod.mk.inj heq
  have hexchanging : flow.phase = .exchanging := by
    cases hphase : flow.phase <;> rw [hphase] at hstage <;> first | rfl | cases hstage
  have hphase : s.phaseAt x.entry.flow = some .exchanging := by
    rw [phaseAt, hflow, ← hexchanging]
    rfl
  have hturns : Turns s
      ({ s with exchanges := s.exchanges.set i { x with result := some result } }.settle
        x.entry.flow result) x.entry.flow .over ⟨x.state, x.pkce⟩ :=
    turns_setPhase .settled hflow hrequest.symm (by rw [hexchanging]; nofun)
      (by rw [hexchanging]; nofun) rfl rfl
  have hphases : ∀ m, ({ s with exchanges := s.exchanges.set i { x with result := some result } }.settle
      x.entry.flow result).phaseAt m = if x.entry.flow = m then some .settled else s.phaseAt m :=
    phaseAt_of_setPhase hflow rfl
  refine ⟨hturns.answers hinv hx rfl hplaced rfl rfl rfl, id, ?_, ?_⟩
  · intro m p hp hm
    rw [hphases] at hm
    split at hm
    · obtain rfl := Option.some.inj hm
      cases hp
    · exact .inr ⟨m, p, hp, hm⟩
  · intro starting m hm
    rw [hphases, if_neg, hstarts starting m hm]
    rintro rfl
    refine hstarts.ne _ hphase ?_ (congrArg (Option.map Prod.snd) hm)
    rintro (_ | _ | _ | _) <;> nofun

/-- A step that does not look whether a flow is left. -/
theorem step_quiet (hinv : Inv s) (hstarts : s.Starts) {e : Event T} (htaken : s.taken e = none)
    (hstep : s.step e = some s') : Quiet s s' := by
  cases e with
  | begin kind =>
      obtain rfl := Option.some.inj hstep
      exact (startOAuthServer_started hstarts).quiet hinv hstarts kind
  | listened4 error =>
      simp only [step] at hstep
      split at hstep
      · rename_i n hstarting
        obtain rfl := Option.some.inj hstep
        have hsame : s.phaseAt n = some .starting := hstarts _ n hstarting
        refine ⟨hinv.congr rfl rfl rfl rfl (List.Subset.refl _), id,
          fun m p hp hm => .inr ⟨m, p, hp, hm⟩, ?_⟩
        intro starting m hm
        obtain ⟨rfl, rfl⟩ := Prod.mk.inj (Option.some.inj hm)
        exact hsame
      · rename_i n error hstarting
        obtain rfl := Option.some.inj hstep
        exact quiet_settleStarting .rejected hinv (hstarts _ n hstarting) id nofun rfl
      · cases hstep
  | listened6 error =>
      simp only [step] at hstep
      split at hstep
      · rename_i n hstarting
        obtain rfl := Option.some.inj hstep
        exact quiet_settleStarting .resolved hinv (hstarts _ n hstarting)
          (fun _ => List.cons_ne_nil _ _) (fun _ => List.cons_ne_nil _ _) rfl
      · rename_i n error hstarting
        split at hstep
        · obtain rfl := Option.some.inj hstep
          exact quiet_settleStarting .rejected hinv (hstarts _ n hstarting) id nofun rfl
        · obtain rfl := Option.some.inj hstep
          exact quiet_settleStarting .resolved hinv (hstarts _ n hstarting)
            (fun _ => List.cons_ne_nil _ _) (fun _ => List.cons_ne_nil _ _) rfl
      · cases hstep
  | cleared =>
      have hclear : ({ s with serverStarting := none } : State T) = s' := by
        simp only [step] at hstep
        split at hstep
        · exact Option.some.inj hstep
        · exact Option.some.inj hstep
        · cases hstep
      subst hclear
      exact ⟨hinv.congr rfl rfl rfl rfl (List.Subset.refl _), id,
        fun m p hp hm => .inr ⟨m, p, hp, hm⟩, nofun⟩
  | started n =>
      simp only [step] at hstep
      split at hstep
      · rename_i hflow
        split at hstep
        · cases hstep
        · rename_i hother
          obtain rfl := Option.some.inj hstep
          exact quiet_setPhase hinv hstarts .generating hflow rfl id hother
      · cases hstep
  | generated n result =>
      cases result with
      | none =>
          simp only [step] at hstep
          split at hstep
          · rename_i hflow _
            obtain rfl := Option.some.inj hstep
            refine quiet_setPhase hinv hstarts .failed hflow rfl nofun ?_
            refine hstarts.ne .generating ?_ ?_
            · rw [phaseAt, hflow]
              rfl
            · rintro (_ | _ | _ | _) <;> nofun
          · contradiction
          · cases hstep
      | some drawn =>
          obtain ⟨pkce, state⟩ := drawn
          obtain ⟨flow, hflow, hgenerating, hfresh, rfl⟩ := step_generated hstep
          refine quiet_authorize hinv hstarts hflow hgenerating hfresh fun hkind => ?_
          obtain ⟨kind, phase, aborted, request⟩ := flow
          obtain rfl : kind = .accountLogin := hkind
          cases aborted with
          | false => rfl
          | true =>
              simp only [taken, hflow] at htaken
              cases htaken
  | request url =>
      simp only [step, Option.some.injEq] at hstep
      subst hstep
      have hcuts : Cuts s { s with requests := url :: s.requests } none [] := hinv.cuts_requests url
      rcases handler_sweeps none hcuts.inv (List.mem_cons_self (a := url)) with
        ⟨states, htaken', -⟩ | ⟨-, hsame⟩
      · cases htaken'.symm.trans htaken
      · rw [hsame]
        exact hcuts.quiet hinv rfl hstarts
  | timeout n =>
      obtain rfl := Option.some.inj hstep
      rcases expire_sweeps none hinv n _ with ⟨states, htaken', -⟩ | ⟨-, hsame⟩
      · cases htaken'.symm.trans htaken
      · rw [hsame]
        exact (Cuts.refl hinv).quiet hinv rfl hstarts
  | abort n =>
      obtain ⟨flow, hflow, rfl⟩ := step_abort hstep
      have hcuts : Cuts s { s with flows := s.flows.set n { flow with aborted := true } } none [] :=
        hinv.cuts_aborted hflow
      rcases expire_sweeps none hcuts.inv n "Login cancelled" with
        ⟨states, htaken', -⟩ | ⟨-, hsame⟩
      · rw [taken_aborted hflow, htaken] at htaken'
        cases htaken'
      · rw [hsame]
        exact hcuts.quiet hinv rfl hstarts
  | exchanged i result =>
      simp only [step] at hstep
      split at hstep
      · rename_i x hx
        obtain rfl := Option.some.inj hstep
        exact quiet_exchanged hinv hstarts hx rfl
      · cases hstep
  | finish n =>
      obtain ⟨flow, r, hflow, -, hrequest, -⟩ := step_finish hstep
      obtain ⟨kind, phase, aborted, request⟩ := flow
      obtain rfl : request = some r := hrequest
      simp only [taken, hflow] at htaken
      cases htaken

end Quiet

/-! ## Runs -/

section Runs

variable {s s' : State T} {e : Event T}

theorem inv_init : Inv ({} : State T) where
  distinct := nofun
  entries := nofun
  waiting := nofun
  exchanges := nofun
  exchangesOnce := List.nodup_nil
  settlements := nofun
  settlesOnce := List.nodup_nil

/-- The flow that ends in a step that looks did not start the listeners. -/
theorem Starts.own_ne (hstarts : s.Starts) (hstep : s.step e = some s') (n : ℕ)
    (hown : e.own = some n) : s.serverStarting.map Prod.snd ≠ some n := by
  cases e with
  | generated m result =>
      obtain rfl := Option.some.inj hown
      refine hstarts.ne .generating ?_ ?_
      · simp only [step] at hstep
        cases hflow : s.flows[m]? with
        | none =>
            rw [hflow] at hstep
            cases result <;> cases hstep
        | some flow =>
            obtain ⟨kind, phase, aborted, request⟩ := flow
            rw [hflow] at hstep
            rw [phaseAt, hflow]
            cases phase <;> first | rfl | cases result <;> cases hstep
      · rintro (_ | _ | _ | _) <;> nofun
  | _ => cases hown

theorem step_inv (hinv : Inv s) (hstarts : s.Starts) (hstep : s.step e = some s') :
    Inv s' ∧ s'.Starts := by
  cases htaken : s.taken e with
  | none =>
      have hquiet := step_quiet hinv hstarts htaken hstep
      exact ⟨hquiet.inv, hquiet.starts⟩
  | some states =>
      obtain ⟨hcuts, -⟩ := (step_sweeps hinv htaken hstep).1
      exact ⟨hcuts.inv, hcuts.starts hstarts (hstarts.own_ne hstep)⟩

theorem reached_inv {meets : State T → Event T → Prop} (h : Reached meets s) :
    Inv s ∧ s.Starts := by
  induction h with
  | init => exact ⟨inv_init, nofun⟩
  | step h hmeets hstep ih => exact step_inv ih.1 ih.2 hstep

theorem settlesOwn (hinv : Inv s) : s.SettlesOwn where
  once := hinv.settlesOnce
  own := by
    intro n tokens hmem
    obtain ⟨x, hx, rfl, hresult⟩ := (hinv.settlements n _ hmem).2 tokens rfl
    obtain ⟨-, hplaced, hsent⟩ := hinv.exchanges x hx
    rw [hresult] at hplaced
    obtain ⟨flow, hflow, heq⟩ := exists_flow s (n := x.entry.flow) (by rw [hplaced]; nofun)
    rw [hplaced] at heq
    obtain ⟨-, hrequest⟩ := Prod.mk.inj heq
    exact ⟨flow, _, hflow, hrequest.symm, x, hx, rfl, rfl, hresult, hsent⟩

/-- Every flow that `pendingFlows` shows is one that the step ends. -/
theorem Cuts.size_eq_zero {own : Option ℕ} {states : List String} (h : Cuts s s' own states) :
    s'.pendingFlows.size = 0 ↔ ∀ entry ∈ s.pendingFlows.entries, entry.1 ∈ states := by
  rw [State.size_eq_zero]
  constructor
  · rintro hnone ⟨key, entry⟩ hmem
    by_contra hnot
    have hget := h.pending key
    rw [hnone, if_neg hnot, Js.Table.get_eq_some.mpr hmem] at hget
    cases hget
  · intro hall key
    rw [h.pending]
    split
    · rfl
    · rename_i hnot
      cases hget : s.pendingFlows.get key with
      | none => rfl
      | some entry => exact absurd (hall _ (Js.Table.get_eq_some.mp hget)) hnot

/-- Exactly the lapses close the listeners under another flow. -/
theorem closesUnder_iff (hinv : Inv s) (hstarts : s.Starts) (hstep : s.step e = some s') :
    s.ClosesUnder s' ↔ s.Lapse e := by
  constructor
  · rintro ⟨hopen, hclosed, n, phase, hway, hphase, hphase'⟩
    cases htaken : s.taken e with
    | none => exact absurd hclosed ((step_quiet hinv hstarts htaken hstep).servers hopen)
    | some states =>
        obtain ⟨⟨hcuts, hservers⟩, hown⟩ := step_sweeps hinv htaken hstep
        have hsize : s'.pendingFlows.size = 0 := by
          by_contra hne
          rw [if_neg hne] at hservers
          exact hopen (hservers.symm.trans hclosed)
        refine ⟨hopen, ⟨states, htaken, hcuts.size_eq_zero.mp hsize⟩, n, phase, hphase, ?_, ?_⟩
        · cases phase with
          | waiting => exact absurd hsize (hcuts.waiting hinv hphase').2
          | granted | generating | exchanging => rfl
          | _ => cases hway
        · intro heq
          rw [hown n heq] at hphase'
          obtain rfl := Option.some.inj hphase'
          cases hway
  · rintro ⟨hopen, ⟨states, htaken, hall⟩, n, phase, hphase, hunseen, hown⟩
    obtain ⟨⟨hcuts, hservers⟩, -⟩ := step_sweeps hinv htaken hstep
    rw [if_pos (hcuts.size_eq_zero.mpr hall)] at hservers
    have hphase' : s'.phaseAt n = some phase := by
      refine hcuts.kept n phase hown ?_ ?_ hphase
      · rintro rfl
        cases hunseen
      · rintro rfl
        cases hunseen
    refine ⟨hopen, hservers, n, phase, ?_, hphase, hphase'⟩
    cases phase with
    | granted | generating | exchanging => rfl
    | _ => cases hunseen

/-- The listeners are there as long as a flow waits for its callback. -/
theorem step_listens (hinv : Inv s) (hstarts : s.Starts) (hlapse : ¬ s.Lapse e)
    (hstep : s.step e = some s')
    (h : ∀ n phase, phase.listens → s.phaseAt n = some phase → s.oauthServers ≠ []) :
    ∀ n phase, phase.listens → s'.phaseAt n = some phase → s'.oauthServers ≠ [] := by
  intro n phase hlistens hphase'
  cases htaken : s.taken e with
  | none =>
      have hquiet := step_quiet hinv hstarts htaken hstep
      rcases hquiet.listens n phase hlistens hphase' with hopen | ⟨m, p, hp, hm⟩
      · exact hopen
      · exact hquiet.servers (h m p hp hm)
  | some states =>
      obtain ⟨⟨hcuts, hservers⟩, hown⟩ := step_sweeps hinv htaken hstep
      -- the flow was there before, and was shown in `pendingFlows` or unseen
      have hphase : s.phaseAt n = some phase := by
        cases phase with
        | waiting => exact (hcuts.waiting hinv hphase').1
        | granted | generating => exact hcuts.early n _ rfl hphase'
        | _ => cases hlistens
      have hopen := h n phase hlistens hphase
      intro hclosed
      refine hlapse ((closesUnder_iff hinv hstarts hstep).mp
        ⟨hopen, hclosed, n, phase, ?_, hphase, hphase'⟩)
      cases phase <;> first | rfl | cases hlistens

theorem reached_listens (h : Reached (fun s e => ¬ s.Lapse e) s) :
    ∀ n phase, phase.listens → s.phaseAt n = some phase → s.oauthServers ≠ [] := by
  induction h with
  | init => nofun
  | step h hmeets hstep ih =>
      obtain ⟨hinv, hstarts⟩ := reached_inv h
      exact step_listens hinv hstarts hmeets hstep ih

end Runs

end State

variable {T : Type}

/-- In every run each flow settles at most once, with tokens only for a code that came with its own
state and was exchanged with its own verifier, and a state's code is exchanged once. A step closes
the listeners under another flow exactly if it is a lapse, and without one every flow that waits for
its callback has them. -/
theorem browser_flows {s : State T} {meets : State T → Event T → Prop} (h : Reached meets s) :
    s.SettlesOwn ∧ s.ExchangesOnce ∧
      (∀ e s', s.step e = some s' → (s.ClosesUnder s' ↔ s.Lapse e)) ∧
      ((∀ s e, meets s e → ¬ s.Lapse e) → s.Listens) := by
  obtain ⟨hinv, hstarts⟩ := State.reached_inv h
  refine ⟨State.settlesOwn hinv, hinv.exchangesOnce,
    fun e s' hstep => State.closesUnder_iff hinv hstarts hstep, fun hmeets n flow hflow hlistens => ?_⟩
  have hreached : Reached (fun s e => ¬ s.Lapse e) s := by
    clear hinv hstarts hflow
    induction h with
    | init => exact .init
    | step h hmeet hstep ih => exact ih.step (hmeets _ _ hmeet) hstep
  refine State.reached_listens hreached n flow.phase hlistens ?_
  rw [State.phaseAt, hflow]
  rfl

theorem not_lapse_of_taken {s : State T} {e : Event T} (h : s.taken e = none) : ¬ s.Lapse e := by
  rintro ⟨-, ⟨states, htaken, -⟩, -⟩
  rw [h] at htaken
  cases htaken

/-- One flow waits, and has the listeners. -/
theorem browser_flows_waiting : ∃ s : State Unit, s.phaseAt 0 = some .waiting ∧
    s.oauthServers ≠ [] := by
  have hinit : Reached (fun (s : State Unit) e => ¬ s.Lapse e) {} := .init
  have hbegin := hinit.step (e := .begin .browser) (not_lapse_of_taken rfl) rfl
  have hlistened4 := hbegin.step (e := .listened4 none) (not_lapse_of_taken rfl) rfl
  have hlistened6 := hlistened4.step (e := .listened6 none) (not_lapse_of_taken rfl) rfl
  have hcleared := hlistened6.step (e := .cleared) (not_lapse_of_taken rfl) rfl
  have hstarted := hcleared.step (e := .started 0) (not_lapse_of_taken rfl) rfl
  have hwaiting := hstarted.step (e := .generated 0 (some (⟨"verifier", "challenge"⟩, "state")))
    (not_lapse_of_taken rfl) rfl
  have hlistens := (browser_flows hwaiting).2.2.2 fun _ _ h => h
  exact ⟨_, rfl, hlistens 0 _ rfl rfl⟩

/-- A flow ends while another one is in `generatePKCE`, and takes the listeners with it. -/
theorem flow_loses_listeners : ∃ s s' : State Unit,
    State.run {} [.begin .accountLogin, .listened4 none, .listened6 none, .cleared, .started 0,
      .generated 0 (some (⟨"verifier", "challenge"⟩, "state")), .begin .browser, .started 1] = some s ∧
    s.step (.request { pathname := "/cancel", state := some "state" }) = some s' ∧
    s.oauthServers = [.ipv4, .ipv6] ∧ s.phaseAt 1 = some .generating ∧
    s'.oauthServers = [] ∧ s'.phaseAt 1 = some .generating ∧ ¬ s'.Listens := by
  refine ⟨_, _, rfl, rfl, rfl, rfl, rfl, rfl, fun hlistens => ?_⟩
  exact hlistens 1 _ rfl rfl rfl

end OAuth
