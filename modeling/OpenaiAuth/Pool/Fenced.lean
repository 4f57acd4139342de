import OpenaiAuth.Pool.Knowing

/-! # The fence around the slot

What holds of every world the runs reach. A run's knowledge is true of the world, and each
thing that was written to a row or to the slot was written on what its run had read.

Main results: `placeholder_fenced`, when the placeholder replaces the recorded login, and
`rowWritten_unspent`, when a row is given a token that no refresh has spent.
-/

namespace PoolMigration

open Js Interleave

/-! ## What one call does -/

section Exec

variable {setup : Setup} {store : PoolStore} {t : ℕ} {ch : Choice} {w w' : World}

theorem exec_acquire {lock : Lock} {r : Except Thrown Unit}
    (h : exec setup store t (.acquire lock) ch w = some (r, w')) :
    (r = .ok () ∧ w.holder lock = none ∧ w' = w.setHolder lock (some t)) ∨
      ((∃ e, r = .error e) ∧ w' = w) := by
  cases ch with
  | done =>
      simp only [exec] at h
      split_ifs at h with hfree
      obtain ⟨rfl, rfl⟩ := Prod.mk.inj (Option.some.inj h)
      exact .inl ⟨rfl, hfree, rfl⟩
  | contended =>
      obtain ⟨rfl, rfl⟩ := Prod.mk.inj (Option.some.inj h)
      exact .inr ⟨⟨_, rfl⟩, rfl⟩
  | _ => cases h

theorem exec_release {lock : Lock} {r : Unit}
    (h : exec setup store t (.release lock) ch w = some (r, w')) :
    w' = if w.holder lock = some t then w.setHolder lock none else w := by
  cases ch with
  | done => exact (Prod.mk.inj (Option.some.inj h)).2.symm
  | _ => cases h

theorem exec_readConfig {r : Except Thrown ConfigFile}
    (h : exec setup store t .readConfig ch w = some (r, w')) :
    w' = w ∧ ∀ config, r = .ok config → config = w.config := by
  cases ch with
  | done =>
      obtain ⟨rfl, rfl⟩ := Prod.mk.inj (Option.some.inj h)
      refine ⟨rfl, ?_⟩
      rintro _ ⟨⟩
      rfl
  | fails message =>
      obtain ⟨rfl, rfl⟩ := Prod.mk.inj (Option.some.inj h)
      exact ⟨rfl, fun _ heq => by cases heq⟩
  | _ => cases h

theorem exec_updateConfig {u : ConfigUpdate} {r : Except Thrown Unit}
    (h : exec setup store t (.updateConfig u) ch w = some (r, w')) :
    (r = .ok () ∧ ∃ now, w' = w.update t now u) ∨ ((∃ e, r = .error e) ∧ w' = w) := by
  cases ch with
  | time now =>
      obtain ⟨rfl, rfl⟩ := Prod.mk.inj (Option.some.inj h)
      exact .inl ⟨rfl, now, rfl⟩
  | contended =>
      obtain ⟨rfl, rfl⟩ := Prod.mk.inj (Option.some.inj h)
      exact .inr ⟨⟨_, rfl⟩, rfl⟩
  | fails message =>
      obtain ⟨rfl, rfl⟩ := Prod.mk.inj (Option.some.inj h)
      exact .inr ⟨⟨_, rfl⟩, rfl⟩
  | _ => cases h

theorem exec_storeRead {site : ReadSite} {r : PoolLoad}
    (h : exec setup store t (.storeRead site) ch w = some (r, w')) :
    w' = w.record (.poolRead t site r) ∧ ∀ rows, Known.PoolLoad.known r = some rows →
      rows = w.pool.rows := by
  cases ch with
  | done =>
      obtain ⟨rfl, rfl⟩ := Prod.mk.inj (Option.some.inj h)
      refine ⟨rfl, ?_⟩
      intro rows hrows
      unfold Pool.load at hrows
      split_ifs at hrows
      · cases hrows
        rfl
      · cases hrows
        rfl
  | fails message =>
      obtain ⟨rfl, rfl⟩ := Prod.mk.inj (Option.some.inj h)
      exact ⟨rfl, fun _ heq => by cases heq⟩
  | _ => cases h

theorem exec_storeWrite {write : StoreWrite} {r : Except Thrown Unit}
    (h : exec setup store t (.storeWrite write) ch w = some (r, w')) :
    w' = w ∨ ∃ pool, w' = w.writeRows t write pool := by
  cases ch with
  | done =>
      simp only [exec] at h
      split at h
      · exact .inr ⟨_, (Prod.mk.inj (Option.some.inj h)).2.symm⟩
      · exact .inl (Prod.mk.inj (Option.some.inj h)).2.symm
  | contended => exact .inl (Prod.mk.inj (Option.some.inj h)).2.symm
  | fails message => exact .inl (Prod.mk.inj (Option.some.inj h)).2.symm
  | _ => cases h

theorem exec_slotGet {r : Option Json} (h : exec setup store t .slotGet ch w = some (r, w')) :
    r = w.slot ∧ w' = w.get t := by
  cases ch with
  | done =>
      obtain ⟨rfl, rfl⟩ := Prod.mk.inj (Option.some.inj h)
      exact ⟨rfl, rfl⟩
  | _ => cases h

theorem exec_slotSet {r : Except Thrown Unit}
    (h : exec setup store t .slotSet ch w = some (r, w')) :
    w' = w ∨ (w.seen = some w.slot ∧ w' = w.putPlaceholder t setup.placeholderOrigin) := by
  cases ch with
  | done =>
      simp only [exec] at h
      split_ifs at h with hseen
      · exact .inr ⟨hseen, (Prod.mk.inj (Option.some.inj h)).2.symm⟩
      · exact .inl (Prod.mk.inj (Option.some.inj h)).2.symm
  | fails message => exact .inl (Prod.mk.inj (Option.some.inj h)).2.symm
  | _ => cases h

end Exec

/-! ## What was written -/

/-- What an entry was written on, when `older` had happened. -/
def Grounded (setup : Setup) : Entry → List Entry → Prop
  | .placeholderWritten t was pending, older =>
      ∃ record, pending = some record ∧ verified t record older = true ∧
        (pairIn was = some record.slotFingerprint ↔
          (lastSeen older).map pairIn = (lastRead t older).map pairIn)
  | .rowWritten t _ c, older =>
      ∃ slot, (lastRead t older).bind (loginIn setup) = some slot ∧ slot.fingerprint = c.fingerprint
  | _, _ => True

def isSlotRead (t : ℕ) : Entry → Bool
  | .slotRead t' _ => t' = t
  | _ => false

/-- What happened since run `t` last got the slot. -/
def sinceRead (t : ℕ) (log : List Entry) : List Entry :=
  log.takeWhile fun e => !isSlotRead t e

/-- What had happened by then. -/
def untilRead (t : ℕ) (log : List Entry) : List Entry :=
  log.dropWhile fun e => !isSlotRead t e

/-- Every entry of the log is grounded in what had happened. -/
def GroundedLog (setup : Setup) : List Entry → Prop
  | [] => True
  | e :: older => Grounded setup e older ∧ GroundedLog setup older

theorem GroundedLog.entry {setup : Setup} {newer older : List Entry} {e : Entry}
    (h : GroundedLog setup (newer ++ e :: older)) : Grounded setup e older := by
  induction newer with
  | nil => exact h.1
  | cons _ newer ih => exact ih h.2

theorem verified_cons {t : ℕ} {record : PendingTransfer} {log : List Entry} (e : Entry)
    (h : verified t record log = true) : verified t record (e :: log) = true :=
  @verified_append t log [e] record h

/-! ## The invariant -/

/-- What run `t` knows is so. -/
structure Own (w : World) (t : ℕ) (k : Known) : Prop where
  held : k.locked = true → w.holder .poolMigration = some t
  nothing : k.locked = false → k.pending = none ∧ k.rows = none ∧ k.proved = none
  pending : ∀ pending, k.pending = some pending → w.config.book.pending = pending
  proved : ∀ record, k.proved = some record → verified t record w.log = true
  read : k.lastRead = lastRead t w.log

theorem Own.pending_unlocked {w : World} {t : ℕ} {k : Known} {pending : Option PendingTransfer}
    (h : Own w t k) (hpending : k.pending = some pending) : k.locked = true := by
  by_contra hunlocked
  rw [Bool.not_eq_true] at hunlocked
  rw [(h.nothing hunlocked).1] at hpending
  cases hpending

/-- Another's step that leaves the locked run its lock and the record. -/
theorem Own.frame {w w' : World} {t : ℕ} {k : Known} (h : Own w t k) (newer : List Entry)
    (hholder : k.locked = true → w'.holder .poolMigration = some t)
    (hpending : k.locked = true → w'.config.book.pending = w.config.book.pending)
    (hlog : w'.log = newer ++ w.log) (hrun : ∀ e ∈ newer, e.run? ≠ some t) : Own w' t k where
  held := hholder
  nothing := h.nothing
  pending := by
    intro pending hknown
    rw [hpending (h.pending_unlocked hknown)]
    exact h.pending pending hknown
  proved := by
    intro record hproved
    rw [hlog]
    exact verified_append (h.proved record hproved)
  read := by
    rw [hlog, lastRead_append hrun]
    exact h.read

structure Inv (setup : Setup) (w : World) (g : ℕ → Known) : Prop where
  own : ∀ t, Own w t (g t)
  seen : lastSeen w.log = w.seen
  written : ∀ record, w.config.book.pending = some record → Entry.recordWritten record ∈ w.log
  log : GroundedLog setup w.log

theorem inv_initial (setup : Setup) (slot : Option Json) (otherLogins : Bool) (config : ConfigFile)
    (pool : Pool) : Inv setup (World.initial slot otherLogins config pool) fun _ => {} where
  own := by
    intro t
    refine ⟨nofun, fun _ => ⟨rfl, rfl, rfl⟩, nofun, nofun, ?_⟩
    unfold World.initial
    cases config.book.pending <;> rfl
  seen := by
    unfold World.initial
    cases config.book.pending <;> rfl
  written := by
    intro record hpending
    have hconfig : config.book.pending = some record := hpending
    simp [World.initial, hconfig]
  log := by
    unfold World.initial
    cases config.book.pending with
    | none => trivial
    | some record => exact ⟨trivial, trivial⟩

section Steps

variable {setup : Setup} {store : PoolStore} {w w' : World} {g : ℕ → Known} {t : ℕ} {ch : Choice}

/-- Run `t` knows `k` now, and the others know what they knew. -/
theorem Inv.act {k : Known} (hown : Own w' t k) (hothers : ∀ t', t' ≠ t → Own w' t' (g t'))
    (hseen : lastSeen w'.log = w'.seen)
    (hwritten : ∀ record, w'.config.book.pending = some record →
      Entry.recordWritten record ∈ w'.log)
    (hlog : GroundedLog setup w'.log) : Inv setup w' (Function.update g t k) where
  own := by
    intro t'
    by_cases ht : t' = t
    · rw [ht, Function.update_self]
      exact hown
    · rw [Function.update_of_ne ht]
      exact hothers t' ht
  seen := hseen
  written := hwritten
  log := hlog

theorem Inv.know {k : Known} (hinv : Inv setup w g) (hown : Own w t k) :
    Inv setup w (Function.update g t k) :=
  .act hown (fun t' _ => hinv.own t') hinv.seen hinv.written hinv.log

/-- No other run is locked when `t` is. -/
theorem Inv.alone (hinv : Inv setup w g) (ht : (g t).locked = true) {t' : ℕ} (hne : t' ≠ t) :
    (g t').locked = false := by
  by_contra hlocked
  rw [Bool.not_eq_false] at hlocked
  have heq := ((hinv.own t').held hlocked).symm.trans ((hinv.own t).held ht)
  exact hne (Option.some.inj heq)

/-- A lock other than the run lock changes hands. -/
theorem Own.setHolder {k : Known} (h : Own w t k) {lock : Lock} (hlock : lock ≠ .poolMigration)
    (holder : Option ℕ) : Own (w.setHolder lock holder) t k :=
  h.frame []
    (fun hlocked => (World.setHolder_ne w holder hlock.symm).trans (h.held hlocked))
    (fun _ => rfl) rfl (fun _ he => by cases he)

theorem Inv.setHolder (hinv : Inv setup w g) (lock : Lock) (hlock : lock ≠ .poolMigration)
    (holder : Option ℕ) : Inv setup (w.setHolder lock holder) (Function.update g t (g t)) :=
  .act ((hinv.own t).setHolder hlock holder) (fun t' _ => (hinv.own t').setHolder hlock holder)
    hinv.seen hinv.written hinv.log

theorem Inv.acquire (hinv : Inv setup w g) (hfree : w.holder .poolMigration = none) :
    Inv setup (w.setHolder .poolMigration (some t))
      (Function.update g t { g t with locked := true }) := by
  have hunlocked : ∀ t', (g t').locked = false := by
    intro t'
    by_contra hlocked
    rw [Bool.not_eq_false] at hlocked
    rw [(hinv.own t').held hlocked] at hfree
    cases hfree
  obtain ⟨hpending, -, hproved⟩ := (hinv.own t).nothing (hunlocked t)
  refine .act ⟨fun _ => World.setHolder_self .., nofun, ?_, ?_, (hinv.own t).read⟩ ?_ hinv.seen
    hinv.written hinv.log
  · intro pending hknown
    rw [show (g t).pending = some pending from hknown] at hpending
    cases hpending
  · intro record hknown
    rw [show (g t).proved = some record from hknown] at hproved
    cases hproved
  · intro t' _
    refine (hinv.own t').frame [] ?_ (fun _ => rfl) rfl (fun _ he => by cases he)
    intro hlocked
    rw [hunlocked t'] at hlocked
    cases hlocked

theorem own_unlocked {k : Known} (hread : k.lastRead = lastRead t w.log) : Own w t k.unlocked :=
  ⟨nofun, fun _ => ⟨rfl, rfl, rfl⟩, nofun, nofun, hread⟩

theorem Inv.release (hinv : Inv setup w g) :
    Inv setup (if w.holder .poolMigration = some t then w.setHolder .poolMigration none else w)
      (Function.update g t (g t).unlocked) := by
  split_ifs with hheld
  · refine .act (own_unlocked (hinv.own t).read) ?_ hinv.seen hinv.written hinv.log
    intro t' hne
    refine (hinv.own t').frame [] ?_ (fun _ => rfl) rfl (fun _ he => by cases he)
    intro hlocked
    have heq := hheld.symm.trans ((hinv.own t').held hlocked)
    exact (hne (Option.some.inj heq).symm).elim
  · exact hinv.know (own_unlocked (hinv.own t).read)

theorem Inv.readConfig (hinv : Inv setup w g) {r : Except Thrown ConfigFile}
    (hr : ∀ config, r = .ok config → config = w.config) :
    Inv setup w (Function.update g t ((g t).learn .readConfig r)) := by
  have hown := hinv.own t
  cases r with
  | error e => exact hinv.know hown
  | ok config =>
      rw [hr config rfl]
      by_cases hlocked : (g t).locked = true
      · simp only [Known.learn, hlocked, if_true]
        refine hinv.know ⟨fun _ => hown.held hlocked, ?_, ?_, ?_, hown.read⟩
        · intro hunlocked
          cases hunlocked
        · intro pending hpending
          cases hpending
          rfl
        · intro record hknown
          cases hknown
      · simp only [Known.learn, if_neg hlocked]
        exact hinv.know hown

theorem updateEntries_read (u : ConfigUpdate) :
    lastRead t (w.updateEntries t u ++ w.log) = lastRead t w.log ∧
      lastSeen (w.updateEntries t u ++ w.log) = lastSeen w.log := by
  cases u with
  | writeFinished mode declined =>
      unfold World.updateEntries
      cases w.config.book.pending <;> exact ⟨rfl, rfl⟩
  | _ => exact ⟨rfl, rfl⟩

theorem updateEntries_run (u : ConfigUpdate) {t' : ℕ} (hne : t' ≠ t) :
    ∀ e ∈ w.updateEntries t u, e.run? ≠ some t' := by
  intro e he
  cases u with
  | writeFinished mode declined =>
      unfold World.updateEntries at he
      cases hpending : w.config.book.pending with
      | none =>
          rw [hpending] at he
          cases he
      | some record =>
          rw [hpending] at he
          cases List.mem_singleton.mp he
          exact fun heq => hne (Option.some.inj heq).symm
  | writeRecord record =>
      cases List.mem_singleton.mp he
      exact nofun
  | _ => cases he

/-- An update that changes the record is made by the locked run. -/
theorem May.update_locked {k : Known} {u : ConfigUpdate} (h : May setup k (.updateConfig u)) :
    k.locked = true ∨ ∀ pending, u.pendingAfter pending = pending := by
  cases u with
  | writeFinished mode declined => exact .inl h.1
  | clearRecord => exact .inl h
  | writeRecord record => exact .inl h.1
  | repairShield => exact .inr fun _ => rfl

theorem Inv.update (hinv : Inv setup w g) {u : ConfigUpdate} {now : ℕ}
    (hu : May setup (g t) (.updateConfig u)) :
    Inv setup (w.update t now u)
      (Function.update g t ((g t).learn (.updateConfig u) (.ok ()))) := by
  have hown := hinv.own t
  obtain ⟨hread, hseen⟩ := @updateEntries_read w t u
  have hafter : (w.update t now u).config.book.pending =
      u.pendingAfter w.config.book.pending := ConfigUpdate.apply_pending u now w.config
  refine .act ⟨hown.held, ?_, ?_, nofun, hown.read.trans hread.symm⟩ ?_
    (hseen.trans hinv.seen) ?_ ?_
  · intro hunlocked
    obtain ⟨hpending, hrows, -⟩ := hown.nothing hunlocked
    refine ⟨?_, hrows, rfl⟩
    simp only [Known.learn, hpending, Option.map_none]
  · intro pending hknown
    obtain ⟨before, hbefore, rfl⟩ := Option.map_eq_some_iff.mp hknown
    rw [hafter, hown.pending before hbefore]
  · intro t' hne
    refine (hinv.own t').frame _ (hinv.own t').held ?_ rfl (updateEntries_run u hne)
    intro hlocked
    rcases hu.update_locked with ht | hsame
    · rw [hinv.alone ht hne] at hlocked
      cases hlocked
    · rw [hafter, hsame]
  · intro record hpending
    rw [hafter] at hpending
    cases u with
    | writeRecord written =>
        cases hpending
        exact List.mem_cons_self
    | repairShield => exact List.mem_append_right _ (hinv.written record hpending)
    | _ => cases hpending
  · cases u with
    | writeFinished mode declined =>
        unfold World.update World.updateEntries
        cases w.config.book.pending with
        | none => exact hinv.log
        | some record => exact ⟨trivial, hinv.log⟩
    | writeRecord record => exact ⟨trivial, hinv.log⟩
    | _ => exact hinv.log

theorem Inv.storeRead (hinv : Inv setup w g) (site : ReadSite) (load : PoolLoad) :
    Inv setup (w.record (.poolRead t site load))
      (Function.update g t ((g t).learn (.storeRead site) load)) := by
  have hown := hinv.own t
  have hother : ∀ t', t' ≠ t → Own (w.record (.poolRead t site load)) t' (g t') := by
    intro t' hne
    refine (hinv.own t').frame [.poolRead t site load] (hinv.own t').held
      (fun _ => rfl) rfl ?_
    intro e he
    cases List.mem_singleton.mp he
    exact fun heq => hne (Option.some.inj heq).symm
  have hproved : ∀ record, (g t).proved = some record →
      verified t record (.poolRead t site load :: w.log) = true :=
    fun record hknown => verified_cons (.poolRead t site load)
      (hown.proved record hknown)
  have hread : (g t).lastRead = lastRead t (.poolRead t site load :: w.log) := hown.read
  have hwritten : ∀ record, w.config.book.pending = some record →
      Entry.recordWritten record ∈ Entry.poolRead t site load :: w.log :=
    fun record hpending => List.mem_cons_of_mem _ (hinv.written record hpending)
  by_cases hlocked : (g t).locked = true
  · simp only [Known.learn, hlocked, if_true]
    refine .act ⟨fun _ => hown.held hlocked, ?_, hown.pending, ?_, hread⟩ hother hinv.seen
      hwritten ⟨trivial, hinv.log⟩
    · intro hunlocked
      cases hunlocked
    intro record hknown
    change (g t).proves load = some record at hknown
    unfold Known.proves at hknown
    split at hknown
    · rename_i found hpending
      split_ifs at hknown with hverified
      · cases hknown
        have hin := hinv.written record (hown.pending _ hpending)
        simp only [verified, World.record_log, decide_true, Bool.true_and, hverified, hin,
          Bool.true_or]
      · exact hproved record hknown
    · exact hproved record hknown
  · simp only [Known.learn, if_neg hlocked]
    exact .act ⟨hown.held, hown.nothing, hown.pending, hproved, hread⟩ hother hinv.seen hwritten
      ⟨trivial, hinv.log⟩

theorem writeRows_entries (write : StoreWrite) (pool : Pool) :
    (w.writeRows t write pool).log =
      (write.credential.map fun x => Entry.rowWritten t x.1 x.2).toList ++ w.log := rfl

theorem Inv.storeWrite (hinv : Inv setup w g) {write : StoreWrite} {pool : Pool}
    (hmay : May setup (g t) (.storeWrite write)) :
    Inv setup (w.writeRows t write pool) (Function.update g t { g t with rows := none }) := by
  have hown := hinv.own t
  have hrun : ∀ t', t' ≠ t → ∀ e ∈ (write.credential.map fun x =>
      Entry.rowWritten t x.1 x.2).toList, e.run? ≠ some t' := by
    intro t' hne e he
    obtain ⟨x, -, rfl⟩ := Option.map_eq_some_iff.mp (Option.mem_toList.mp he)
    exact fun heq => hne (Option.some.inj heq).symm
  have hother : ∀ t', t' ≠ t → Own (w.writeRows t write pool) t' (g t') := fun t' hne =>
    (hinv.own t').frame _ (hinv.own t').held (fun _ => rfl) (writeRows_entries write pool)
      (hrun t' hne)
  have hwritten : ∀ record, w.config.book.pending = some record →
      Entry.recordWritten record ∈ (w.writeRows t write pool).log := fun record hpending =>
    List.mem_append_right _ (hinv.written record hpending)
  have hlocked := hmay.1
  cases hcredential : write.credential with
  | none =>
      have hlog : (w.writeRows t write pool).log = w.log := by
        rw [writeRows_entries, hcredential]
        rfl
      refine .act ⟨hown.held, ?_, hown.pending, ?_, ?_⟩ hother ?_ hwritten ?_
      · intro hunlocked
        rw [show (g t).locked = false from hunlocked] at hlocked
        cases hlocked
      · rw [hlog]
        exact hown.proved
      · rw [hlog]
        exact hown.read
      · rw [hlog]
        exact hinv.seen
      · rw [hlog]
        exact hinv.log
  | some x =>
      obtain ⟨id, c⟩ := x
      have hlog : (w.writeRows t write pool).log = .rowWritten t id c :: w.log := by
        rw [writeRows_entries, hcredential]
        rfl
      refine .act ⟨hown.held, ?_, hown.pending, ?_, ?_⟩ hother ?_ hwritten ?_
      · intro hunlocked
        rw [show (g t).locked = false from hunlocked] at hlocked
        cases hlocked
      · intro record hknown
        rw [hlog]
        exact verified_cons (.rowWritten t id c) (hown.proved record hknown)
      · rw [hlog]
        exact hown.read
      · rw [hlog]
        exact hinv.seen
      · rw [hlog]
        refine ⟨?_, hinv.log⟩
        obtain ⟨slot, hlogin, hslot⟩ := hmay.2 id c hcredential
        refine ⟨slot, ?_, hslot⟩
        rw [← hown.read]
        exact hlogin

theorem Inv.slotGet (hinv : Inv setup w g) :
    Inv setup (w.get t) (Function.update g t { g t with lastRead := some w.slot }) := by
  have hown := hinv.own t
  have hread : lastRead t (w.get t).log = some w.slot := by
    simp only [lastRead, World.get, List.findSome?_cons, if_true]
  refine .act ⟨hown.held, hown.nothing, hown.pending, ?_, hread.symm⟩ ?_ rfl ?_ ⟨trivial, hinv.log⟩
  · intro record hknown
    exact verified_cons (.slotRead t w.slot) (hown.proved record hknown)
  · intro t' hne
    refine (hinv.own t').frame [.slotRead t w.slot] (hinv.own t').held
      (fun _ => rfl) rfl ?_
    intro e he
    cases List.mem_singleton.mp he
    exact fun heq => hne (Option.some.inj heq).symm
  · intro record hpending
    exact List.mem_cons_of_mem _ (hinv.written record hpending)

theorem Inv.slotSet (hinv : Inv setup w g) (hmay : May setup (g t) .slotSet)
    (hseen : w.seen = some w.slot) :
    Inv setup (w.putPlaceholder t setup.placeholderOrigin) (Function.update g t (g t)) := by
  have hown := hinv.own t
  obtain ⟨record, hpending, hproved, hpair⟩ := hmay
  refine .act ⟨hown.held, hown.nothing, hown.pending, ?_, hown.read⟩ ?_ hinv.seen ?_ ⟨?_, hinv.log⟩
  · intro record hknown
    exact verified_cons (.placeholderWritten t w.slot w.config.book.pending)
      (hown.proved record hknown)
  · intro t' hne
    refine (hinv.own t').frame [.placeholderWritten t w.slot w.config.book.pending]
      (hinv.own t').held (fun _ => rfl) rfl ?_
    intro e he
    cases List.mem_singleton.mp he
    exact fun heq => hne (Option.some.inj heq).symm
  · intro record hpending
    exact List.mem_cons_of_mem _ (hinv.written record hpending)
  · refine ⟨record, hown.pending _ hpending, hown.proved record hproved, ?_⟩
    rw [← hown.read, hpair, hinv.seen, hseen, Option.map_some, Option.some.injEq]

/-- A call after which the world and what is known of it are as before. -/
def Quiet : Call → Bool
  | .migrationDisabledReason | .fenceBlocked | .carryLegacyMainState _ | .slotAll | .now
  | .sleep _ | .newId | .legacyLeaseActive _ => true
  | _ => false

theorem quiet_learn {o : Call} (h : Quiet o = true) (k : Known) (r : o.Ans) : k.learn o r = k := by
  cases o with
  | acquire lock => cases h
  | release lock => cases h
  | readConfig => cases h
  | updateConfig u => cases h
  | storeRead site => cases h
  | storeWrite write => cases h
  | slotGet => cases h
  | slotSet => cases h
  | _ => rfl

theorem quiet_exec {o : Call} (h : Quiet o = true) {r : o.Ans}
    (hx : exec setup store t o ch w = some (r, w')) : w' = w := by
  rcases exec_cases hx with hw | ⟨_, rfl, -⟩ | ⟨_, rfl, -⟩ | ⟨_, _, rfl, -⟩ | ⟨_, _, rfl, -⟩ |
    ⟨_, _, rfl, -⟩ | ⟨rfl, -⟩ | ⟨rfl, -⟩
  · exact hw
  all_goals cases h

theorem Inv.call (hinv : Inv setup w g) {o : Call} {r : o.Ans} (hmay : May setup (g t) o)
    (hx : exec setup store t o ch w = some (r, w')) :
    Inv setup w' (Function.update g t ((g t).learn o r)) := by
  have hsame : Inv setup w (Function.update g t (g t)) := hinv.know (hinv.own t)
  have hquiet : Quiet o = true → Inv setup w' (Function.update g t ((g t).learn o r)) := by
    intro h
    rw [quiet_learn h, quiet_exec h hx]
    exact hsame
  cases o with
  | acquire lock =>
      rcases exec_acquire hx with ⟨rfl, hfree, rfl⟩ | ⟨⟨e, rfl⟩, rfl⟩
      · cases lock with
        | poolMigration => exact hinv.acquire hfree
        | slotTransfer => exact hinv.setHolder .slotTransfer nofun _
        | mainRefresh => exact hinv.setHolder .mainRefresh nofun _
      · cases lock <;> exact hsame
  | release lock =>
      rw [exec_release hx]
      cases lock with
      | poolMigration => exact hinv.release
      | slotTransfer =>
          split_ifs
          · exact hinv.setHolder .slotTransfer nofun _
          · exact hsame
      | mainRefresh =>
          split_ifs
          · exact hinv.setHolder .mainRefresh nofun _
          · exact hsame
  | readConfig =>
      obtain ⟨rfl, hr⟩ := exec_readConfig hx
      exact hinv.readConfig hr
  | updateConfig u =>
      rcases exec_updateConfig hx with ⟨rfl, now, rfl⟩ | ⟨⟨e, rfl⟩, rfl⟩
      · exact hinv.update hmay
      · exact hsame
  | storeRead site =>
      rw [(exec_storeRead hx).1]
      exact hinv.storeRead site r
  | storeWrite write =>
      rcases exec_storeWrite hx with rfl | ⟨pool, rfl⟩
      · have hown := hinv.own t
        exact hinv.know ⟨hown.held, fun h => ⟨(hown.nothing h).1, rfl, (hown.nothing h).2.2⟩,
          hown.pending, hown.proved, hown.read⟩
      · exact hinv.storeWrite hmay
  | slotGet =>
      obtain ⟨rfl, rfl⟩ := exec_slotGet hx
      exact hinv.slotGet
  | slotSet =>
      rcases exec_slotSet hx with rfl | ⟨hseen, rfl⟩
      · exact hsame
      · exact hinv.slotSet hmay hseen
  | _ => exact hquiet rfl

theorem Inv.move (hinv : Inv setup w g) {m : Move} (hm : PoolMigration.move m w = some w') :
    Inv setup w' g := by
  have hentry : ∀ {w₁ : World} {e : Entry}, w₁.log = e :: w.log → w₁.holder = w.holder →
      w₁.config = w.config → e.run? = none → ∀ t, Own w₁ t (g t) := by
    intro w₁ e hlog hholder hconfig he t
    refine (hinv.own t).frame [e] ?_ (fun _ => by rw [hconfig]) hlog ?_
    · rw [hholder]
      exact (hinv.own t).held
    · intro x hx
      rw [List.mem_singleton.mp hx, he]
      exact nofun
  have hwritten : ∀ (e : Entry) record, w.config.book.pending = some record →
      Entry.recordWritten record ∈ e :: w.log := fun _ record hpending =>
    List.mem_cons_of_mem _ (hinv.written record hpending)
  cases m with
  | hostWrites slot otherLogins =>
      cases hm
      exact ⟨fun t => (hinv.own t).frame [] (hinv.own t).held (fun _ => rfl) rfl
        (fun _ he => by cases he), hinv.seen, hinv.written, hinv.log⟩
  | otherReads =>
      cases hm
      exact ⟨hentry rfl rfl rfl rfl, rfl, hwritten _, trivial, hinv.log⟩
  | refreshed id credential =>
      obtain ⟨spent, -, rfl⟩ := Option.map_eq_some_iff.mp hm
      exact ⟨hentry rfl rfl rfl rfl, hinv.seen, hwritten _, trivial, hinv.log⟩
  | poolChanges pool =>
      cases hm
      exact ⟨fun t => (hinv.own t).frame [] (hinv.own t).held (fun _ => rfl) rfl
        (fun _ he => by cases he), hinv.seen, hinv.written, hinv.log⟩

theorem Inv.halt (hinv : Inv setup w g) :
    Inv setup (w.dropLocks t) (Function.update g t (g t).unlocked) := by
  refine .act (own_unlocked (hinv.own t).read) ?_ hinv.seen hinv.written hinv.log
  intro t' hne
  refine (hinv.own t').frame [] ?_ (fun _ => rfl) rfl (fun _ he => by cases he)
  intro hlocked
  have hheld := (hinv.own t').held hlocked
  have hnot : w.holder .poolMigration ≠ some t := by
    rw [hheld]
    exact fun heq => hne (Option.some.inj heq)
  exact (if_neg hnot).trans hheld

end Steps

/-! ## Runs -/

section Runs

variable (setup : Setup) (store : PoolStore)

def fenceAssertion : Assertion (machine setup store) knowing (May setup) where
  inv := Inv setup
  thread := fun _ => True
  okMove := fun _ _ => True
  call := fun hinv _ hmay hx => hinv.call hmay hx
  move := fun hinv _ hm => hinv.move hm
  halt := fun hinv => hinv.halt

variable {setup store}

/-- What a run of these events shows of its last world is so of a world it reaches. -/
theorem reaches_of_run {β : Type} (w₀ : World) (es : List (PoolEvent setup store))
    (f : World → β) {x : β} (hstart : ∀ p, Event.start p ∈ es → IsRun setup p)
    (hrun : ((Config.initial w₀ : PoolConfig setup store).run es).map (fun c => f c.world) =
      some x) : ∃ w, Reaches setup store w₀ es w ∧ f w = x := by
  obtain ⟨c, hreached, hx⟩ := Option.map_eq_some_iff.mp hrun
  exact ⟨c.world, ⟨hstart, c, hreached, rfl⟩, hx⟩

theorem isRun_justified (p : Prog calls (Except Thrown PoolTransferOutcome))
    (h : IsRun setup p) : knowing.Justified (May setup) knowing.start p fun _ _ => True := by
  obtain ⟨mode, polls, rfl⟩ := h
  exact Learning.justified_mono run_justified fun _ _ _ => trivial

theorem reaches_inv {slot : Option Json} {otherLogins : Bool} {config : ConfigFile} {pool : Pool}
    {es : List (PoolEvent setup store)} {w : World}
    (h : Reaches setup store (World.initial slot otherLogins config pool) es w) :
    ∃ g, Inv setup w g := by
  obtain ⟨hstart, c, hrun, rfl⟩ := h
  exact (fenceAssertion setup store).inv_of_runsTo isRun_justified (fun _ => trivial)
    (fun _ _ => trivial) (inv_initial setup slot otherLogins config pool) ⟨es, hstart, hrun⟩

/-- A placeholder is written for a record whose row was read back with its credential, and in
place of the login the record names, exactly when the adapter's last read of the slot saw the
login the run's own last read saw. -/
theorem placeholder_fenced {slot : Option Json} {otherLogins : Bool} {config : ConfigFile}
    {pool : Pool} {es : List (PoolEvent setup store)} {w : World}
    (h : Reaches setup store (World.initial slot otherLogins config pool) es w)
    {newer older : List Entry} {t : ℕ} {was : Option Json} {pending : Option PendingTransfer}
    (hlog : w.log = newer ++ .placeholderWritten t was pending :: older) :
    (∃ record, pending = some record ∧ verified t record older = true ∧
      pairIn was = some record.slotFingerprint) ↔
        (lastSeen older).map pairIn = (lastRead t older).map pairIn := by
  obtain ⟨g, hinv⟩ := reaches_inv h
  have hgrounded := hinv.log
  rw [hlog] at hgrounded
  obtain ⟨record, rfl, hverified, hiff⟩ := hgrounded.entry
  constructor
  · rintro ⟨found, heq, -, hpair⟩
    cases heq
    exact hiff.mp hpair
  · intro hseen
    exact ⟨record, rfl, hverified, hiff.mpr hseen⟩

end Runs

/-! ### An adoption of the login row `main` holds already -/

def oneSetup : Setup where
  placeholderOrigin := "origin"
  isCustodyPlaceholder := fun _ => false
  claimsAccount := fun _ => none

/-- A store that writes what it is given. -/
def plainStore : PoolStore where
  write
    | .rotate id c _, pool | .replace id c _, pool =>
        .ok { pool with rows := pool.rows.map fun row =>
          if row.id = id then { row with credential := some (.oauth c) } else row }
    | .add id c identity, pool =>
        .ok { pool with rows := pool.rows ++
          [{ id, type := .oauth, enabled := true, identity, credential := some (.oauth c) }] }
    | _, pool => .ok pool

def oneLogin (access refresh : String) : Json :=
  MainOauthSlot.toJson { access := some access, refresh := some refresh }

def mainRow (access refresh : String) : PoolRow where
  id := "main"
  type := .oauth
  enabled := true
  credential := some (.oauth { access, refresh })

def sharedWorld : World :=
  World.initial (some (oneLogin "access" "refresh")) false { book := { migratedAt := some 0 } }
    { initialized := true, rows := [mainRow "access" "refresh"] }

def sharedRecord : PendingTransfer where
  rowId := "main"
  operation := .rotate
  rowFingerprint := some (.oauth "refresh")
  slotFingerprint := .slot "access" "refresh"
  credentialFingerprint := .oauth "refresh"
  identity := none
  carryLegacyMain := false
  recordedAt := 0

def acts (choices : List Choice) : List (PoolEvent oneSetup plainStore) := choices.map (.act 0)

@[simp] theorem mem_acts {choices : List Choice} {e : PoolEvent oneSetup plainStore} :
    e ∈ acts choices ↔ ∃ ch ∈ choices, Event.act 0 ch = e := List.mem_map

/-- The adoption up to the last read of the slot before the row write, and `es` after it. -/
def adopting (es : List (PoolEvent oneSetup plainStore)) : List (PoolEvent oneSetup plainStore) :=
  .start (run oneSetup .adopt 1).run ::
    acts [.done, .done, .done, .done, .done, .done, .time 0, .done, .flag false, .time 0,
      .name "id", .time 0, .flag false, .done] ++ es

/-- From there up to the last read before the placeholder. -/
def untilLast : List (PoolEvent oneSetup plainStore) := acts (List.replicate 7 .done)

theorem adopting_starts {es : List (PoolEvent oneSetup plainStore)}
    (hes : ∀ p, Event.start p ∉ es) :
    ∀ p, Event.start p ∈ adopting es → IsRun oneSetup p := by
  intro p hp
  rcases List.mem_append.mp hp with hp | hp
  · rcases List.mem_cons.mp hp with heq | hp
    · exact ⟨.adopt, 1, Event.start.inj heq⟩
    · simp at hp
  · exact (hes p hp).elim

def confirmedLog : List Entry :=
  [.slotRead 0 (some (oneLogin "access" "refresh")), .recordWritten sharedRecord,
    .slotRead 0 (some (oneLogin "access" "refresh")),
    .poolRead 0 .planning (.ready [mainRow "access" "refresh"])]

def lastLog : List Entry :=
  [.slotRead 0 (some (oneLogin "access" "refresh")),
    .slotRead 0 (some (oneLogin "access" "refresh")),
    .poolRead 0 .verifying (.ready [mainRow "access" "refresh"]),
    .rowWritten 0 "main" { access := "access", refresh := "refresh" },
    .poolRead 0 .rotating (.ready [mainRow "access" "refresh"])] ++ confirmedLog

/-- Another caller reads the slot too, and it still holds the login. -/
theorem placeholder_fenced_read :
    ∃ record, some sharedRecord = some record ∧
      verified 0 record (.slotReadByOther (some (oneLogin "access" "refresh")) :: lastLog) = true ∧
      pairIn (some (oneLogin "access" "refresh")) = some record.slotFingerprint := by
  obtain ⟨w, hreaches, hlog⟩ := reaches_of_run sharedWorld
    (adopting (untilLast ++ [.move .otherReads, .act 0 .done])) World.log
    (adopting_starts (by simp [untilLast]))
    (show _ = some ([] ++ .placeholderWritten 0 (some (oneLogin "access" "refresh"))
      (some sharedRecord) :: .slotReadByOther (some (oneLogin "access" "refresh")) :: lastLog) by
        decide +kernel)
  exact (placeholder_fenced hreaches hlog).mpr (by decide +kernel)

/-- The host leaves another login in the slot, another caller of the adapter reads it, and the
placeholder goes over it: no row holds it. -/
theorem placeholder_fenced_lost :
    ∃ (es : List (PoolEvent oneSetup plainStore)) (w : World),
      Reaches oneSetup plainStore sharedWorld es w ∧
        Entry.placeholderWritten 0 (some (oneLogin "other" "login")) (some sharedRecord) ∈ w.log ∧
        pairIn (some (oneLogin "other" "login")) ≠ some sharedRecord.slotFingerprint ∧
        w.slot = some (poolPlaceholder "origin") ∧
        w.pool.rows = [mainRow "access" "refresh"] := by
  obtain ⟨w, hreaches, hshown⟩ := reaches_of_run sharedWorld
    (adopting (untilLast ++
      [.move (.hostWrites (some (oneLogin "other" "login")) false), .move .otherReads,
        .act 0 .done]))
    (fun w => (decide (Entry.placeholderWritten 0 (some (oneLogin "other" "login"))
      (some sharedRecord) ∈ w.log), w.slot, w.pool.rows))
    (adopting_starts (by simp [untilLast]))
    (show _ = some (true, some (poolPlaceholder "origin"), [mainRow "access" "refresh"]) by
      decide +kernel)
  obtain ⟨hlog, hstores⟩ := Prod.mk.inj hshown
  obtain ⟨hslot, hrows⟩ := Prod.mk.inj hstores
  exact ⟨_, w, hreaches, of_decide_eq_true hlog, by decide, hslot, hrows⟩

/-- The log when row `main` has been written. -/
def writtenLog : List Entry :=
  .rowWritten 0 "main" { access := "access", refresh := "refresh" } ::
    .poolRead 0 .rotating (.ready [mainRow "access" "refresh"]) :: confirmedLog

end PoolMigration
