import OpenaiAuth.Pool.Fenced

/-! # A login and its row apart

A run removes the record together with the shield. The slot then no longer holds the token of
the record's row, as far as the run has read: a refresh token of the host's logins goes with
one access token, or its access tokens name one account.

Main result: `finished_apart`.
-/

namespace PoolMigration

open Js Interleave

/-! ## What is assumed of the others -/

/-- Two logins of one refresh token are one, or name one account. -/
def OneLogin (setup : Setup) (logins : SlotCredential → Prop) : Prop :=
  ∀ c c', logins c → logins c' → c.refresh = c'.refresh →
    c.access = c'.access ∨ ((c.identity setup).isSome ∧ c'.identity setup = c.identity setup)

/-- Every token of the rows was there before or is no login's. -/
def Later (logins : SlotCredential → Prop) (before after : List PoolRow) : Prop :=
  ∀ id token, tokenOf id after = some token →
    tokenOf id before = some token ∨ ∀ c, logins c → c.refresh ≠ token

namespace Later

variable {logins : SlotCredential → Prop} {rows₁ rows₂ rows₃ : List PoolRow}

theorem refl : Later logins rows₁ rows₁ := fun _ _ h => .inl h

theorem trans (h : Later logins rows₁ rows₂) (h' : Later logins rows₂ rows₃) :
    Later logins rows₁ rows₃ := by
  intro id token htoken
  rcases h' id token htoken with hbefore | hnone
  · exact h id token hbefore
  · exact .inr hnone

end Later

/-- The host leaves one of its logins in the slot, or none; a refresh stores a token that no
login has, and so does whatever else changes the rows. -/
def MoveApart (setup : Setup) (logins : SlotCredential → Prop) : Move → World → Prop
  | .hostWrites slot _, _ => ∀ c, loginIn setup slot = some c → logins c
  | .otherReads, _ => True
  | .refreshed _ credential, _ => ∀ c, logins c → c.refresh ≠ credential.refresh
  | .poolChanges pool, w => Later logins w.pool.rows pool.rows

/-! ## The invariant -/

/-- The record was removed, and the slot as the run last read it does not hold the token the
row holds. -/
def EntryApart (setup : Setup) : Entry → List Entry → Prop
  | .finished t _ row, older => ∀ c, (lastRead t older).bind (loginIn setup) = some c →
      row.bind (·.refresh) ≠ some c.refresh
  | _, _ => True

def LogApart (setup : Setup) : List Entry → Prop
  | [] => True
  | e :: older => EntryApart setup e older ∧ LogApart setup older

theorem LogApart.entry {setup : Setup} {newer older : List Entry} {e : Entry}
    (h : LogApart setup (newer ++ e :: older)) : EntryApart setup e older := by
  induction newer with
  | nil => exact h.1
  | cons _ newer ih => exact ih h.2

structure InvApart (setup : Setup) (logins : SlotCredential → Prop) (w : World)
    (g : ℕ → Known) : Prop where
  base : Inv setup w g
  slot : ∀ c, loginIn setup w.slot = some c → logins c
  read : ∀ t c, (g t).login setup = some c → logins c
  names : ∀ record, w.config.book.pending = some record →
    ∃ c, logins c ∧ record.Names setup c
  rows : ∀ t rows, (g t).rows = some rows → Later logins rows w.pool.rows
  log : LogApart setup w.log

section Steps

variable {setup : Setup} {store : PoolStore} {logins : SlotCredential → Prop} {w w' : World}
  {g : ℕ → Known} {t : ℕ} {ch : Choice}

/-- A step that leaves slot and rows, after which `t` knows no more of them. -/
theorem InvApart.frame (h : InvApart setup logins w g) {k : Known}
    (hbase : Inv setup w' (Function.update g t k)) (hslot : w'.slot = w.slot)
    (hpool : w'.pool = w.pool)
    (hnames : ∀ record, w'.config.book.pending = some record →
      ∃ c, logins c ∧ record.Names setup c)
    (hlogin : k.lastRead = (g t).lastRead)
    (hrows : ∀ rows, k.rows = some rows → (g t).rows = some rows)
    (hlog : LogApart setup w'.log) : InvApart setup logins w' (Function.update g t k) where
  base := hbase
  slot := by
    rw [hslot]
    exact h.slot
  read := by
    intro t' c hc
    by_cases ht : t' = t
    · rw [ht, Function.update_self, Known.login, hlogin] at hc
      exact h.read t c hc
    · rw [Function.update_of_ne ht] at hc
      exact h.read t' c hc
  names := hnames
  rows := by
    rw [hpool]
    intro t' rows hknown
    by_cases ht : t' = t
    · rw [ht, Function.update_self] at hknown
      exact h.rows t rows (hrows rows hknown)
    · rw [Function.update_of_ne ht] at hknown
      exact h.rows t' rows hknown
  log := hlog

/-- What a run knows apart when it removes the record is so of the world. -/
theorem InvApart.finished (h : InvApart setup logins w g) (hone : OneLogin setup logins)
    {record : PendingTransfer} {rows : List PoolRow} {c : SlotCredential}
    (hpending : w.config.book.pending = some record) (hrows : (g t).rows = some rows)
    (hlogin : (g t).login setup = some c)
    (hapart : Apart setup record (rowFor record.rowId rows) c) :
    (rowFor record.rowId w.pool.rows).bind (·.refresh) ≠ some c.refresh := by
  intro hsame
  have hc : logins c := h.read t c hlogin
  obtain ⟨named, hnamed, hnames⟩ := h.names record hpending
  have hcredential : record.credentialFingerprint = .oauth named.refresh := hnames.credential
  -- the token was the row's when it was read
  have hread : tokenOf record.rowId rows = some c.refresh := by
    rcases h.rows t rows hrows record.rowId c.refresh hsame with hread | hnone
    · exact hread
    · exact (hnone c hc rfl).elim
  obtain ⟨row, hrow, htoken⟩ := Option.bind_eq_some_iff.mp hread
  have hfingerprint : (rowFor record.rowId rows).bind (·.fingerprint) =
      some (.oauth c.refresh) := by
    rw [hrow]
    exact PoolRow.fingerprint_eq_oauth.mpr htoken
  rcases hapart with ⟨hslot, hother⟩ | ⟨hslot, haccount, hrecorded⟩
  · rw [hnames.slot] at hslot
    have hrefresh : c.refresh = named.refresh := (Fingerprint.slot.inj hslot).2
    rw [hcredential, ← hrefresh] at hother
    exact hother hfingerprint
  · rw [hfingerprint, hcredential] at hrecorded
    have hrefresh : c.refresh = named.refresh := Fingerprint.oauth.inj (Option.some.inj hrecorded)
    rcases hone named c hnamed hc hrefresh.symm with haccess | ⟨hsome, hidentity⟩
    · refine hslot ?_
      rw [hnames.slot, SlotCredential.fingerprint, SlotCredential.fingerprint, haccess, hrefresh]
    · refine haccount ?_
      rw [hnames.identity]
      exact ⟨hsome, hidentity⟩

theorem InvApart.update (h : InvApart setup logins w g) (hone : OneLogin setup logins)
    {u : ConfigUpdate} {now : ℕ} (hu : May setup (g t) (.updateConfig u)) :
    InvApart setup logins (w.update t now u)
      (Function.update g t ((g t).learn (.updateConfig u) (.ok ()))) := by
  refine h.frame (h.base.update hu) rfl rfl ?_ rfl (fun _ => id) ?_
  · intro record hpending
    rw [show (w.update t now u).config.book.pending = u.pendingAfter w.config.book.pending from
      ConfigUpdate.apply_pending u now w.config] at hpending
    cases u with
    | writeRecord written =>
        cases hpending
        obtain ⟨-, c, hlogin, hnames⟩ := hu
        exact ⟨c, h.read t c hlogin, hnames⟩
    | repairShield => exact h.names record hpending
    | _ => cases hpending
  · cases u with
    | writeFinished mode declined =>
        unfold World.update World.updateEntries
        cases hpending : w.config.book.pending with
        | none => exact h.log
        | some record =>
            refine ⟨?_, h.log⟩
            intro c hlogin
            obtain ⟨-, pending, hknown, hapart⟩ := hu
            have hrecord : pending = some record :=
              ((h.base.own t).pending pending hknown).symm.trans hpending
            have hc : (g t).login setup = some c := by
              rw [Known.login, (h.base.own t).read]
              exact hlogin
            obtain ⟨rows, hrows, hrow⟩ := hapart record c hrecord hc
            exact h.finished hone hpending hrows hc hrow
    | writeRecord record => exact ⟨trivial, h.log⟩
    | _ => exact h.log

/-- The config tells nothing of slot and rows. -/
theorem learn_readConfig {k : Known} (r : Except Thrown ConfigFile) :
    (k.learn .readConfig r).lastRead = k.lastRead ∧ (k.learn .readConfig r).rows = k.rows := by
  cases r with
  | error e => exact ⟨rfl, rfl⟩
  | ok config =>
      simp only [Known.learn]
      split_ifs
      · exact ⟨rfl, rfl⟩
      · exact ⟨rfl, rfl⟩

theorem InvApart.know (h : InvApart setup logins w g) :
    InvApart setup logins w (Function.update g t (g t)) :=
  h.frame (h.base.know (h.base.own t)) rfl rfl h.names rfl (fun _ => id) h.log

theorem InvApart.setHolder (h : InvApart setup logins w g) {k : Known} {lock : Lock}
    {holder : Option ℕ} (hbase : Inv setup (w.setHolder lock holder) (Function.update g t k))
    (hlogin : k.lastRead = (g t).lastRead)
    (hrows : ∀ rows, k.rows = some rows → (g t).rows = some rows) :
    InvApart setup logins (w.setHolder lock holder) (Function.update g t k) :=
  h.frame hbase rfl rfl h.names hlogin hrows h.log

theorem InvApart.storeRead (h : InvApart setup logins w g) {site : ReadSite} {load : PoolLoad}
    (hload : ∀ rows, Known.PoolLoad.known load = some rows → rows = w.pool.rows) :
    InvApart setup logins (w.record (.poolRead t site load))
      (Function.update g t ((g t).learn (.storeRead site) load)) := by
  have hbase := h.base.storeRead (t := t) site load
  by_cases hlocked : (g t).locked = true
  · have hlearn : (g t).learn (.storeRead site) load =
        { g t with rows := Known.PoolLoad.known load, proved := (g t).proves load } := by
      simp only [Known.learn, hlocked, if_true]
    rw [hlearn] at hbase ⊢
    refine ⟨hbase, h.slot, ?_, h.names, ?_, trivial, h.log⟩
    · intro t' c hc
      by_cases ht : t' = t
      · rw [ht, Function.update_self] at hc
        exact h.read t c hc
      · rw [Function.update_of_ne ht] at hc
        exact h.read t' c hc
    · intro t' rows hknown
      by_cases ht : t' = t
      · rw [ht, Function.update_self] at hknown
        rw [hload rows hknown]
        exact .refl
      · rw [Function.update_of_ne ht] at hknown
        exact h.rows t' rows hknown
  · have hlearn : (g t).learn (.storeRead site) load = g t := by
      simp only [Known.learn, if_neg hlocked]
    rw [hlearn] at hbase ⊢
    exact h.frame hbase rfl rfl h.names rfl (fun _ => id) ⟨trivial, h.log⟩

theorem InvApart.storeWrite (h : InvApart setup logins w g) {write : StoreWrite} {pool : Pool}
    (hmay : May setup (g t) (.storeWrite write)) :
    InvApart setup logins (w.writeRows t write pool)
      (Function.update g t { g t with rows := none }) := by
  refine ⟨h.base.storeWrite hmay, h.slot, ?_, h.names, ?_, ?_⟩
  · intro t' c hc
    by_cases ht : t' = t
    · rw [ht, Function.update_self] at hc
      exact h.read t c hc
    · rw [Function.update_of_ne ht] at hc
      exact h.read t' c hc
  · intro t' rows hknown
    by_cases ht : t' = t
    · rw [ht, Function.update_self] at hknown
      cases hknown
    · -- only the locked run knows the rows, and that is the one that writes
      rw [Function.update_of_ne ht] at hknown
      have hnone := ((h.base.own t').nothing (h.base.alone hmay.1 ht)).2.1
      rw [hnone] at hknown
      cases hknown
  · rw [writeRows_entries]
    cases write.credential with
    | none => exact h.log
    | some x => exact ⟨trivial, h.log⟩

theorem InvApart.slotGet (h : InvApart setup logins w g) :
    InvApart setup logins (w.get t) (Function.update g t { g t with lastRead := some w.slot }) := by
  refine ⟨h.base.slotGet, h.slot, ?_, h.names, ?_, trivial, h.log⟩
  · intro t' c hc
    by_cases ht : t' = t
    · rw [ht, Function.update_self] at hc
      exact h.slot c hc
    · rw [Function.update_of_ne ht] at hc
      exact h.read t' c hc
  · intro t' rows hknown
    by_cases ht : t' = t
    · rw [ht, Function.update_self] at hknown
      exact h.rows t rows hknown
    · rw [Function.update_of_ne ht] at hknown
      exact h.rows t' rows hknown

theorem InvApart.slotSet (h : InvApart setup logins w g) (hmay : May setup (g t) .slotSet)
    (hseen : w.seen = some w.slot) :
    InvApart setup logins (w.putPlaceholder t setup.placeholderOrigin)
      (Function.update g t (g t)) := by
  refine ⟨h.base.slotSet hmay hseen, ?_, ?_, h.names, ?_, trivial, h.log⟩
  · intro c hc
    have hnone : loginIn setup (some (poolPlaceholder setup.placeholderOrigin)) = none :=
      loginIn_placeholder (isPoolPlaceholder_poolPlaceholder _)
    rw [show (w.putPlaceholder t setup.placeholderOrigin).slot =
      some (poolPlaceholder setup.placeholderOrigin) from rfl, hnone] at hc
    cases hc
  · rw [Function.update_eq_self]
    exact h.read
  · rw [Function.update_eq_self]
    exact h.rows

theorem InvApart.call (h : InvApart setup logins w g) (hone : OneLogin setup logins) {o : Call}
    {r : o.Ans} (hmay : May setup (g t) o) (hx : exec setup store t o ch w = some (r, w')) :
    InvApart setup logins w' (Function.update g t ((g t).learn o r)) := by
  have hbase := h.base.call hmay hx
  have hquiet : Quiet o = true → InvApart setup logins w'
      (Function.update g t ((g t).learn o r)) := by
    intro hq
    rw [quiet_learn hq, quiet_exec hq hx]
    exact h.know
  cases o with
  | acquire lock =>
      rcases exec_acquire hx with ⟨rfl, -, rfl⟩ | ⟨⟨e, rfl⟩, rfl⟩
      · cases lock <;> exact h.setHolder hbase rfl fun _ => id
      · cases lock <;> exact h.know
  | release lock =>
      have hw := exec_release hx
      cases lock with
      | poolMigration =>
          split_ifs at hw
          · subst hw
            exact h.setHolder hbase rfl fun _ heq => by cases heq
          · subst hw
            exact h.frame hbase rfl rfl h.names rfl (fun _ heq => by cases heq) h.log
      | _ =>
          split_ifs at hw
          · subst hw
            exact h.setHolder hbase rfl fun _ => id
          · subst hw
            exact h.know
  | readConfig =>
      obtain ⟨rfl, -⟩ := exec_readConfig hx
      obtain ⟨hread, hrows⟩ := learn_readConfig (k := g t) r
      exact h.frame hbase rfl rfl h.names hread (fun rows hknown => hrows.symm.trans hknown) h.log
  | updateConfig u =>
      rcases exec_updateConfig hx with ⟨rfl, now, rfl⟩ | ⟨⟨e, rfl⟩, rfl⟩
      · exact h.update hone hmay
      · exact h.know
  | storeRead site =>
      obtain ⟨rfl, hload⟩ := exec_storeRead hx
      exact h.storeRead hload
  | storeWrite write =>
      rcases exec_storeWrite hx with rfl | ⟨pool, rfl⟩
      · exact h.frame hbase rfl rfl h.names rfl (fun _ heq => by cases heq) h.log
      · exact h.storeWrite hmay
  | slotGet =>
      obtain ⟨rfl, rfl⟩ := exec_slotGet hx
      exact h.slotGet
  | slotSet =>
      rcases exec_slotSet hx with rfl | ⟨hseen, rfl⟩
      · exact h.know
      · exact h.slotSet hmay hseen
  | _ => exact hquiet rfl

theorem tokenOf_refreshRow {id id' spent token : String} {credential : SlotCredential}
    (h : tokenOf id' (w.refreshRow id spent credential).pool.rows = some token) :
    tokenOf id' w.pool.rows = some token ∨ token = credential.refresh := by
  unfold tokenOf rowFor World.refreshRow at h
  rw [List.find?_map] at h
  obtain ⟨row, hrow, htoken⟩ := Option.bind_eq_some_iff.mp h
  obtain ⟨old, hold, rfl⟩ := Option.map_eq_some_iff.mp hrow
  have hfound : rowFor id' w.pool.rows = some old := by
    rw [rowFor, ← hold]
    congr 1
    funext row
    dsimp only [Function.comp]
    split_ifs <;> rfl
  split_ifs at htoken
  · cases htoken
    exact .inr rfl
  · refine .inl ?_
    rw [tokenOf, hfound]
    exact htoken

theorem InvApart.move (h : InvApart setup logins w g) {m : Move} (hok : MoveApart setup logins m w)
    (hm : PoolMigration.move m w = some w') : InvApart setup logins w' g := by
  have hbase := h.base.move hm
  cases m with
  | hostWrites slot otherLogins =>
      cases hm
      exact ⟨hbase, hok, h.read, h.names, h.rows, h.log⟩
  | otherReads =>
      cases hm
      exact ⟨hbase, h.slot, h.read, h.names, h.rows, trivial, h.log⟩
  | refreshed id credential =>
      obtain ⟨spent, -, rfl⟩ := Option.map_eq_some_iff.mp hm
      refine ⟨hbase, h.slot, h.read, h.names, ?_, trivial, h.log⟩
      intro t rows hknown
      refine (h.rows t rows hknown).trans ?_
      intro id' token htoken
      rcases tokenOf_refreshRow htoken with hbefore | rfl
      · exact .inl hbefore
      · exact .inr hok
  | poolChanges pool =>
      cases hm
      exact ⟨hbase, h.slot, h.read, h.names, fun t rows hknown => (h.rows t rows hknown).trans hok,
        h.log⟩

theorem InvApart.halt (h : InvApart setup logins w g) :
    InvApart setup logins (w.dropLocks t) (Function.update g t (g t).unlocked) :=
  h.frame h.base.halt rfl rfl h.names rfl (fun _ heq => by cases heq) h.log

end Steps

/-! ## Runs -/

section Runs

variable {setup : Setup} {store : PoolStore} {logins : SlotCredential → Prop}

def apartAssertion (store : PoolStore) (hone : OneLogin setup logins) :
    Assertion (machine setup store) knowing (May setup) where
  inv := InvApart setup logins
  thread := fun _ => True
  okMove := MoveApart setup logins
  call := fun h _ hmay hx => h.call hone hmay hx
  move := fun h hok hm => h.move hok hm
  halt := fun h => h.halt

/-- The moves beside the runs are `MoveApart`. -/
def MovesApart (setup : Setup) (store : PoolStore) (logins : SlotCredential → Prop)
    (c : PoolConfig setup store) : PoolEvent setup store → Prop
  | .move m => MoveApart setup logins m c.world
  | _ => True

/-- Whenever the record goes together with the shield, the login the run last read in the slot
does not have the refresh token the record's row holds. -/
theorem finished_apart (hone : OneLogin setup logins) {slot : Option Json} {otherLogins : Bool}
    {config : ConfigFile} {pool : Pool} (hslot : ∀ c, loginIn setup slot = some c → logins c)
    (hnames : ∀ record, config.book.pending = some record →
      ∃ c, logins c ∧ record.Names setup c)
    {es : List (PoolEvent setup store)} {w : World}
    (h : Reaches setup store (World.initial slot otherLogins config pool) es w)
    (hmoves : Config.Meets (MovesApart setup store logins)
      (Config.initial (World.initial slot otherLogins config pool)) es)
    {newer older : List Entry} {t : ℕ} {record : PendingTransfer} {row : Option PoolRow}
    (hlog : w.log = newer ++ .finished t record row :: older) {c : SlotCredential}
    (hread : (lastRead t older).bind (loginIn setup) = some c) :
    row.bind (·.refresh) ≠ some c.refresh := by
  obtain ⟨hstart, reached, hrun, rfl⟩ := h
  have hinitial : InvApart setup logins (World.initial slot otherLogins config pool)
      fun _ => {} := by
    refine ⟨inv_initial .., hslot, nofun, hnames, nofun, ?_⟩
    unfold World.initial
    cases config.book.pending with
    | none => trivial
    | some record => exact ⟨trivial, trivial⟩
  have hok : Config.Meets ((apartAssertion store hone).Ok (IsRun setup))
      (Config.initial (World.initial slot otherLogins config pool)) es := by
    refine Config.meets_mono ?_ hmoves
    intro e he c hmove
    cases e with
    | start p => exact ⟨hstart p he, trivial⟩
    | move m => exact hmove
    | _ => trivial
  obtain ⟨g, hholds⟩ := Assertion.run_holds (A := apartAssertion store hone) isRun_justified
    (Assertion.initial_holds (A := apartAssertion store hone) hinitial) hok hrun
  have hinv : InvApart setup logins reached.world g := hholds.inv
  have happart := hinv.log
  rw [hlog] at happart
  exact happart.entry c hread

end Runs

/-! ### A slot that moves on -/

/-- The adoption when the host leaves `login` in the slot after the row is proved. -/
def movedOn (login : Json) : List (PoolEvent oneSetup plainStore) :=
  adopting (acts [.done, .done, .done] ++ .move (.hostWrites (some login) false) ::
    acts [.done, .done, .done, .time 0])

def movedOnLog (login : Json) : List Entry :=
  .slotRead 0 (some login) :: .poolRead 0 .verifying (.ready [mainRow "access" "refresh"]) ::
    writtenLog

theorem movedOn_starts (login : Json) :
    ∀ p, Event.start p ∈ movedOn login → IsRun oneSetup p :=
  adopting_starts (by simp)

/-- The host leaves another account's login. -/
theorem finished_apart_other :
    ∃ w, Reaches oneSetup plainStore sharedWorld (movedOn (oneLogin "other" "login")) w ∧
      w.log = .finished 0 sharedRecord (some (mainRow "access" "refresh")) ::
        movedOnLog (oneLogin "other" "login") ∧
      (some (mainRow "access" "refresh")).bind (·.refresh) ≠ some "login" := by
  let logins : SlotCredential → Prop := fun c =>
    c = { access := "access", refresh := "refresh" } ∨ c = { access := "other", refresh := "login" }
  obtain ⟨w, hreaches, hlog⟩ := reaches_of_run sharedWorld (movedOn (oneLogin "other" "login"))
    World.log (movedOn_starts _)
    (show _ = some ([] ++ .finished 0 sharedRecord (some (mainRow "access" "refresh")) ::
      movedOnLog (oneLogin "other" "login")) by decide +kernel)
  have hone : OneLogin oneSetup logins := by
    rintro c c' (rfl | rfl) (rfl | rfl) hrefresh
    · exact .inl rfl
    · exact absurd hrefresh (by decide)
    · exact absurd hrefresh (by decide)
    · exact .inl rfl
  have hread : ∀ access refresh c, loginIn oneSetup (some (oneLogin access refresh)) = some c →
      some c = loginIn oneSetup (some (oneLogin access refresh)) := fun _ _ _ h => h.symm
  have hmoves : Config.Meets (MovesApart oneSetup plainStore logins)
      (Config.initial sharedWorld) (movedOn (oneLogin "other" "login")) := by
    refine Config.meets_of_forall ?_ _
    intro e he c
    cases e with
    | move m =>
        have hm : Event.move m =
            (.move (.hostWrites (some (oneLogin "other" "login")) false) :
              PoolEvent oneSetup plainStore) := by
          simpa [movedOn, adopting] using he
        cases hm
        intro found hfound
        exact .inr (Option.some.inj ((hread _ _ _ hfound).trans (by decide +kernel)))
    | _ => trivial
  refine ⟨w, hreaches, hlog, ?_⟩
  refine finished_apart hone ?_ ?_ hreaches hmoves hlog (c := ⟨"other", "login", none⟩) ?_
  · intro found hfound
    exact .inl (Option.some.inj ((hread _ _ _ hfound).trans (by decide +kernel)))
  · intro record hpending
    cases hpending
  · decide +kernel

/-- The host renews the access token of a login whose account is not known. -/
theorem finished_apart_renewed :
    ∃ (es : List (PoolEvent oneSetup plainStore)) (w : World),
      Reaches oneSetup plainStore sharedWorld es w ∧
        w.config.book.pending = none ∧ w.config.mainAccountId = none ∧
        w.slot = some (oneLogin "renewed" "refresh") ∧
        w.pool.rows = [mainRow "access" "refresh"] ∧
        w.log = .finished 0 sharedRecord (some (mainRow "access" "refresh")) ::
          movedOnLog (oneLogin "renewed" "refresh") := by
  obtain ⟨w, hreaches, hshown⟩ := reaches_of_run sharedWorld
    (movedOn (oneLogin "renewed" "refresh"))
    (fun w => ((w.config.book.pending, w.config.mainAccountId), w.slot, w.pool.rows, w.log))
    (movedOn_starts _)
    (show _ = some ((none, none), some (oneLogin "renewed" "refresh"), [mainRow "access" "refresh"],
      .finished 0 sharedRecord (some (mainRow "access" "refresh")) ::
        movedOnLog (oneLogin "renewed" "refresh")) by decide +kernel)
  obtain ⟨hconfig, hrest⟩ := Prod.mk.inj hshown
  obtain ⟨hslot, hrest⟩ := Prod.mk.inj hrest
  obtain ⟨hrows, hlog⟩ := Prod.mk.inj hrest
  obtain ⟨hpending, hshield⟩ := Prod.mk.inj hconfig
  exact ⟨_, w, hreaches, hpending, hshield, hslot, hrows, hlog⟩

end PoolMigration
