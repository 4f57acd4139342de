import OpenaiAuth.Interleave.Knowledge
import OpenaiAuth.Pool.Interference

/-! # What a run knows at its calls

A run learns from its answers alone. Under the run lock it knows the record in the config
and the rows it read last; at all times it knows what it last got from the slot. Every call
is made with what it needs: the record is written for the login just read, a row is given
the login just read, the placeholder goes in when the slot still held the recorded login and
a row was read back with it, and the record goes together with the shield when the slot's
login is another one than the row's.

Main result: `run_justified`.
-/

namespace PoolMigration

open Js Interleave

/-! ## Knowledge -/

structure Known where
  /-- It holds the run lock. -/
  locked : Bool := false
  /-- The record in the config. -/
  pending : Option (Option PendingTransfer) := none
  /-- The rows as it last read them, if it wrote none since. -/
  rows : Option (List PoolRow) := none
  /-- The record whose row it read back with the recorded credential. -/
  proved : Option PendingTransfer := none
  /-- What the slot held when it last got it. -/
  lastRead : Option (Option Json) := none
deriving DecidableEq

namespace Known

/-- Without the run lock only what the slot held is known. -/
def unlocked (k : Known) : Known := { lastRead := k.lastRead }

def PoolLoad.known : PoolLoad → Option (List PoolRow)
  | .ready rows | .pendingMigration rows => some rows
  | .error _ _ => none

/-- The record its row is known to hold after `load` was read. -/
def proves (k : Known) (load : PoolLoad) : Option PendingTransfer :=
  match k.pending with
  | some (some record) => if (verifiedRow record load).isSome then some record else k.proved
  | _ => k.proved

def learn (k : Known) : (o : Call) → o.Ans → Known
  | .acquire .poolMigration, .ok () => { k with locked := true }
  | .release .poolMigration, () => k.unlocked
  | .readConfig, .ok config =>
      if k.locked then { k with pending := some config.book.pending, proved := none } else k
  | .updateConfig u, .ok () =>
      { k with pending := k.pending.map u.pendingAfter, proved := none }
  | .storeRead _, load =>
      if k.locked then { k with rows := PoolLoad.known load, proved := k.proves load } else k
  | .storeWrite _, _ => { k with rows := none }
  | .slotGet, value => { k with lastRead := some value }
  | _, _ => k

/-- The login in the slot as it was last got. -/
def login (setup : Setup) (k : Known) : Option SlotCredential :=
  k.lastRead.bind (loginIn setup)

end Known

def knowing : Learning calls where
  Known := Known
  start := {}
  learn := Known.learn
  forget := Known.unlocked

/-- `record` is of the transfer of login `c`. -/
structure PendingTransfer.Names (setup : Setup) (record : PendingTransfer) (c : SlotCredential) :
    Prop where
  slot : record.slotFingerprint = c.fingerprint
  credential : record.credentialFingerprint = c.credentialFingerprint
  identity : record.identity = c.identity setup

/-- The slot's login `c` is not the one `row` holds for `record`: it is the recorded one and
the row holds another, or the row holds the recorded one and `c` is neither that pair nor of
the same known account. -/
def Apart (setup : Setup) (record : PendingTransfer) (row : Option PoolRow) (c : SlotCredential) :
    Prop :=
  (c.fingerprint = record.slotFingerprint ∧
      row.bind (·.fingerprint) ≠ some record.credentialFingerprint) ∨
    (c.fingerprint ≠ record.slotFingerprint ∧
      ¬(record.identity.isSome ∧ c.identity setup = record.identity) ∧
      row.bind (·.fingerprint) = some record.credentialFingerprint)

/-- What a run knows when it makes a call. -/
def May (setup : Setup) (k : Known) : Call → Prop
  | .updateConfig (.writeFinished _ _) =>
      k.locked = true ∧ ∃ pending, k.pending = some pending ∧
        ∀ record c, pending = some record → k.login setup = some c →
          ∃ rows, k.rows = some rows ∧ Apart setup record (rowFor record.rowId rows) c
  | .updateConfig .clearRecord => k.locked = true
  | .updateConfig (.writeRecord record) =>
      k.locked = true ∧ ∃ c, k.login setup = some c ∧ record.Names setup c
  | .storeWrite write =>
      k.locked = true ∧ ∀ id c, write.credential = some (id, c) →
        ∃ slot, k.login setup = some slot ∧ slot.fingerprint = c.fingerprint
  | .slotSet =>
      ∃ record, k.pending = some (some record) ∧ k.proved = some record ∧
        k.lastRead.map pairIn = some (some record.slotFingerprint)
  | _ => True

/-! ## The program -/

section Program

variable {setup : Setup} {k : Known} {α : Type}

theorem returns_plain {o : Call} {Q : o.Ans → Known → Prop} (hmay : May setup k o)
    (h : ∀ r, Q r (k.learn o r)) : knowing.Returns (May setup) k (callPlain o) Q := by
  refine Learning.returns_perform hmay ?_
  rintro r _ ⟨⟩
  exact h r

theorem returns_throwing {o : Call} {ans : o.Ans → Except Thrown α} {Q : α → Known → Prop}
    (hmay : May setup k o) (h : ∀ r a, ans r = .ok a → Q a (k.learn o r)) :
    knowing.Returns (May setup) k (callThrowing o ans) Q :=
  Learning.returns_perform hmay h

/-- What follows an attempt is reached with what is known then, whatever was thrown. -/
theorem returns_attempt_ok {p : Attempt α} {Q : α → Known → Prop}
    {R : Except Thrown α → Known → Prop} (h : knowing.Returns (May setup) k p Q)
    (hok : ∀ a k', Q a k' → R (.ok a) k') (herror : ∀ e k', R (.error e) k') :
    knowing.Returns (May setup) k (Throwing.attempt p) R := by
  refine Learning.returns_attempt (Learning.justified_mono h ?_)
  rintro (e | a) k' hr
  · exact herror e k'
  · exact hok a k' (hr a rfl)

theorem returns_onlyIf {c : Bool} {p : Attempt Unit} {Q : Unit → Known → Prop}
    (hp : c = true → knowing.Returns (May setup) k p Q) (hskip : c = false → Q () k) :
    knowing.Returns (May setup) k (onlyIf c p) Q := by
  unfold onlyIf
  split
  · rename_i hc
    exact hp hc
  · rename_i hc
    exact Learning.returns_pure (hskip (Bool.not_eq_true c ▸ hc))

/-! ### Reading the slot -/

def SlotView.login : SlotView → Option SlotCredential
  | .real c => some c
  | _ => none

theorem loginIn_slotView (value : Json) :
    loginIn setup (some value) = (slotView setup value).login := by
  unfold loginIn
  simp only [Option.map_some]
  cases slotView setup value <;> rfl

/-- The slot was read as `view`, and nothing else was learnt. -/
def Saw (setup : Setup) (k : Known) (view : SlotView) (k' : Known) : Prop :=
  ∃ value, k' = { k with lastRead := some value } ∧ loginIn setup value = view.login

theorem Saw.login_eq {view : SlotView} {k' : Known} (h : Saw setup k view k') :
    k'.login setup = view.login := by
  obtain ⟨value, rfl, hlogin⟩ := h
  exact hlogin

theorem saw_value (value : Json) :
    Saw setup k (slotView setup value) { k with lastRead := some (some value) } :=
  ⟨some value, rfl, loginIn_slotView value⟩

theorem confirmAbsent_knows :
    knowing.Returns (May setup) { k with lastRead := some none } (confirmAbsent setup)
      (Saw setup k) := by
  have habsent : ∀ view : SlotView, view.login = none →
      Saw setup k view { k with lastRead := some none } := fun view hview => ⟨none, rfl, hview.symm⟩
  refine Learning.returns_bind (returns_plain trivial fun _ => ?_)
  refine Learning.returns_bind (returns_plain trivial fun _ => ?_)
  refine Learning.returns_bind (returns_plain trivial fun _ => ?_)
  refine Learning.returns_bind (returns_plain trivial fun _ => ?_)
  split_ifs
  · exact Learning.returns_pure (habsent _ rfl)
  · refine Learning.returns_bind (returns_plain trivial ?_)
    rintro (_ | value)
    · refine Learning.returns_bind (returns_plain trivial fun _ => ?_)
      refine Learning.returns_pure (habsent _ ?_)
      split_ifs <;> rfl
    · exact Learning.returns_pure (saw_value value)

theorem readSlot_knows : knowing.Returns (May setup) k (readSlot setup) (Saw setup k) := by
  refine Learning.returns_bind (returns_plain trivial ?_)
  rintro (_ | value)
  · exact confirmAbsent_knows
  · exact Learning.returns_pure (saw_value value)

/-- Only what the slot held was learnt, and a view is of what it held. -/
def SawAtMost (setup : Setup) (k : Known) (view : Option SlotView) (k' : Known) : Prop :=
  (∃ read, k' = { k with lastRead := read }) ∧
    ∀ found, view = some found → k'.login setup = found.login

theorem sawAtMost_of_saw {view : SlotView} {k' : Known} (h : Saw setup k view k') :
    SawAtMost setup k (some view) k' := by
  refine ⟨?_, ?_⟩
  · obtain ⟨value, rfl, -⟩ := h
    exact ⟨_, rfl⟩
  · rintro found ⟨⟩
    exact h.login_eq

theorem pollSlot_knows (deadline polls : ℕ) :
    knowing.Returns (May setup) k (pollSlot setup deadline polls) (SawAtMost setup k) := by
  induction polls generalizing k with
  | zero =>
      exact Learning.returns_pure ⟨⟨k.lastRead, rfl⟩, fun _ h => by cases h⟩
  | succ polls ih =>
      refine Learning.returns_bind (Learning.returns_mono readSlot_knows ?_)
      intro view k' hsaw
      cases view with
      | real credential =>
          have hnone : SawAtMost setup k none k' :=
            ⟨(sawAtMost_of_saw hsaw).1, fun _ h => by cases h⟩
          refine Learning.returns_bind (returns_throwing trivial ?_)
          rintro _ active _
          split
          · refine Learning.returns_bind (returns_plain trivial fun _ => ?_)
            split_ifs
            · exact Learning.returns_pure hnone
            · refine Learning.returns_bind (returns_plain trivial fun _ => ?_)
              obtain ⟨value, rfl, -⟩ := hsaw
              exact ih
          · exact Learning.returns_pure (sawAtMost_of_saw hsaw)
      | _ => exact Learning.returns_pure (sawAtMost_of_saw hsaw)

theorem readSlotHonouringLease_knows (polls : ℕ) :
    knowing.Returns (May setup) k (readSlotHonouringLease setup polls) (SawAtMost setup k) :=
  Learning.returns_bind (returns_plain trivial fun _ => pollSlot_knows _ polls)

/-! ### Planning -/

/-- The lock and the record are as they were. -/
def SameBook (k k' : Known) : Prop := k'.locked = k.locked ∧ k'.pending = k.pending

theorem SameBook.refl : SameBook k k := ⟨rfl, rfl⟩

theorem SameBook.trans {k₁ k₂ : Known} (h : SameBook k k₁) (h' : SameBook k₁ k₂) :
    SameBook k k₂ := ⟨h'.1.trans h.1, h'.2.trans h.2⟩

theorem sameBook_storeRead (site : ReadSite) (load : PoolLoad) :
    SameBook k (k.learn (.storeRead site) load) := by
  unfold Known.learn
  dsimp only
  split_ifs
  · exact ⟨rfl, rfl⟩
  · exact .refl

theorem Saw.sameBook {view : SlotView} {k' : Known} (h : Saw setup k view k') : SameBook k k' := by
  obtain ⟨value, rfl, -⟩ := h
  exact ⟨rfl, rfl⟩

theorem gate_knows (mode : Mode) (config : ConfigFile) :
    knowing.Returns (May setup) k (gate setup mode config) fun _ k' => SameBook k k' := by
  unfold gate
  split_ifs
  · exact Learning.returns_pure .refl
  · refine Learning.returns_bind (returns_plain trivial ?_)
    intro load
    have hread : SameBook k (k.learn (.storeRead .gate) load) := sameBook_storeRead _ _
    split
    · split_ifs
      · exact Learning.returns_pure hread
      · refine Learning.returns_bind (Learning.returns_mono readSlot_knows ?_)
        intro view k' hsaw
        exact Learning.returns_pure (hread.trans hsaw.sameBook)
    · exact Learning.returns_pure hread
  · exact Learning.returns_pure .refl
  · exact Learning.returns_pure .refl

theorem loadRows_knows (book : PoolMigrationBookkeeping) (hlocked : k.locked = true) :
    knowing.Returns (May setup) k (loadRows setup book) fun loaded k' =>
      SameBook k k' ∧ ∀ rows, loaded = .inr rows → k'.rows = some rows := by
  have hready : ∀ {k₁ : Known} (rows : List PoolRow), SameBook k k₁ →
      SameBook k (k₁.learn (.storeRead .planning) (.ready rows)) ∧
        ∀ found, (.inr rows : PoolTransferOutcome ⊕ List PoolRow) = .inr found →
          (k₁.learn (.storeRead .planning) (.ready rows)).rows = some found := by
    intro k₁ rows hsame
    refine ⟨hsame.trans (sameBook_storeRead _ _), ?_⟩
    rintro found ⟨⟩
    have hlocked₁ : k₁.locked = true := hsame.1.trans hlocked
    simp only [Known.learn, hlocked₁, if_true, Known.PoolLoad.known]
  have hended : ∀ {k₁ : Known} (o : PoolTransferOutcome), SameBook k k₁ →
      knowing.Returns (May setup) k₁
        (pure (.inl o) : Attempt (PoolTransferOutcome ⊕ List PoolRow)) fun loaded k' =>
          SameBook k k' ∧ ∀ rows, loaded = .inr rows → k'.rows = some rows :=
    fun o hsame => Learning.returns_pure ⟨hsame, fun _ h => by cases h⟩
  refine Learning.returns_bind (returns_plain trivial ?_)
  intro load
  cases load with
  | ready rows => exact Learning.returns_pure (hready rows .refl)
  | error file reason => exact hended _ (sameBook_storeRead _ _)
  | pendingMigration roster =>
      refine Learning.returns_bind (Learning.returns_mono readSlot_knows ?_)
      intro slot k₁ hsaw
      have hsame : SameBook k k₁ := (sameBook_storeRead _ _).trans hsaw.sameBook
      split_ifs
      · exact hended _ hsame
      · refine Learning.returns_bind (returns_throwing ?_ ?_)
        · refine ⟨hsame.1.trans hlocked, ?_⟩
          rintro id c ⟨⟩
        · rintro _ _ _
          have hwritten : SameBook k (k₁.learn (.storeWrite .initializePool) (.ok ())) := hsame
          refine Learning.returns_bind (returns_plain trivial ?_)
          intro load
          cases load with
          | ready rows => exact Learning.returns_pure (hready rows hwritten)
          | error file reason => exact hended _ (hwritten.trans (sameBook_storeRead _ _))
          | pendingMigration roster => exact hended _ (hwritten.trans (sameBook_storeRead _ _))

theorem resolveTarget_names {mode : Mode} {rows : List PoolRow} {slot : SlotCredential}
    {idHint : Option String} {now : ℕ} {newId : String} :
    (resolveTarget setup mode rows slot idHint now newId).Names setup slot := by
  unfold resolveTarget
  dsimp only
  split
  · exact ⟨rfl, rfl, rfl⟩
  · split_ifs
    · exact ⟨rfl, rfl, rfl⟩
    · split
      · exact ⟨rfl, rfl, rfl⟩
      · exact ⟨rfl, rfl, rfl⟩

/-- What a plan is made from. -/
def Fits (setup : Setup) (book : PoolMigrationBookkeeping) (rows : List PoolRow)
    (login : Option SlotCredential) : Plan → Prop
  | .nothing _ => book.pending = none
  | .dropRecord => True
  | .ambiguous record =>
      book.pending = some record ∧ (∃ c, login = some c ∧ c.fingerprint = record.slotFingerprint) ∧
        (rowFor record.rowId rows).bind (·.fingerprint) ≠ some record.credentialFingerprint
  | .finish record => book.pending = some record
  | .transfer record c true => login = some c ∧ record.Names setup c
  | .transfer record c false => book.pending = some record ∧ c.fingerprint = record.slotFingerprint

theorem recordedLogin_some {record : PendingTransfer} {slot : SlotView} {c : SlotCredential}
    (h : recordedLogin record slot = some c) :
    slot.login = some c ∧ c.fingerprint = record.slotFingerprint := by
  cases slot with
  | real found =>
      simp only [recordedLogin] at h
      split_ifs at h with heq
      cases h
      exact ⟨rfl, heq⟩
  | _ => cases h

theorem planPending_fits {book : PoolMigrationBookkeeping} {record : PendingTransfer}
    {rows : List PoolRow} {slot : SlotView} (hpending : book.pending = some record) :
    Fits setup book rows slot.login (planPending record rows slot) := by
  unfold planPending
  dsimp only
  split_ifs with hfinish hsame hgone hrecorded
  · exact hpending
  · split
    · rename_i c hc
      exact ⟨hpending, (recordedLogin_some hc).2⟩
    · trivial
  · trivial
  · obtain ⟨c, hc⟩ := Option.isSome_iff_exists.mp hrecorded
    have hrow : (rowFor record.rowId rows).isSome := Option.isSome_iff_ne_none.mpr hgone
    exact ⟨hpending, ⟨c, recordedLogin_some hc⟩, fun heq => hfinish ⟨hrow, heq⟩⟩
  · trivial

theorem plan_fits {mode : Mode} {book : PoolMigrationBookkeeping} {rows : List PoolRow}
    {slot : SlotView} {idHint : Option String} {now : ℕ} {newId : String} :
    Fits setup book rows slot.login (plan setup mode book rows slot idHint now newId) := by
  unfold plan
  cases hpending : book.pending with
  | some record => exact planPending_fits hpending
  | none =>
      cases slot with
      | real c =>
          dsimp only
          split_ifs
          · exact hpending
          · exact ⟨rfl, resolveTarget_names⟩
      | indeterminate => trivial
      | _ => exact hpending

/-- What is known once a plan is made of `book` and `rows`. -/
structure PlannedFrom (setup : Setup) (book : PoolMigrationBookkeeping) (rows : List PoolRow)
    (first : Plan) (k : Known) : Prop where
  locked : k.locked = true
  pending : k.pending = some book.pending
  read : k.rows = some rows
  fits : Fits setup book rows (k.login setup) first

theorem makePlan_knows {mode : Mode} {book : PoolMigrationBookkeeping} {polls : ℕ}
    {idHint : Option String} {rows : List PoolRow} (hlocked : k.locked = true)
    (hpending : k.pending = some book.pending) (hrows : k.rows = some rows) :
    knowing.Returns (May setup) k (makePlan setup mode book polls idHint rows) fun planned k' =>
      ∀ first, planned = .inr first → PlannedFrom setup book rows first k' := by
  have hended : ∀ {k₁ : Known} (o : PoolTransferOutcome), knowing.Returns (May setup) k₁
      (pure (.inl o) : Attempt (PoolTransferOutcome ⊕ Plan)) fun planned k' =>
        ∀ first, planned = .inr first → PlannedFrom setup book rows first k' :=
    fun o => Learning.returns_pure fun _ h => by cases h
  refine Learning.returns_bind (Learning.returns_mono (readSlotHonouringLease_knows polls) ?_)
  intro view k₁ hsaw
  obtain ⟨⟨read, hk₁⟩, hlogin⟩ := hsaw
  split
  · exact hended _
  · exact hended _
  · rename_i slot _
    split_ifs
    · exact hended _
    · refine Learning.returns_bind (returns_plain trivial fun at_ => ?_)
      refine Learning.returns_bind (returns_plain trivial fun newId => ?_)
      refine Learning.returns_pure ?_
      rintro first ⟨⟩
      subst hk₁
      refine ⟨hlocked, hpending, hrows, ?_⟩
      have hslot := hlogin slot rfl
      exact hslot ▸ plan_fits

/-! ### Executing -/

/-- The lock is held and `record` is in the config. -/
def Recorded (record : PendingTransfer) (k : Known) : Prop :=
  k.locked = true ∧ k.pending = some (some record)

/-- The row of `record` was read back with its credential, and was not written since. -/
def Proved (record : PendingTransfer) (k : Known) : Prop :=
  Recorded record k ∧ k.proved = some record ∧
    ∃ rows, k.rows = some rows ∧
      (rowFor record.rowId rows).bind (·.fingerprint) = some record.credentialFingerprint

theorem Proved.saw {record : PendingTransfer} {view : SlotView} {k' : Known}
    (h : Proved record k) (hsaw : Saw setup k view k') : Proved record k' := by
  obtain ⟨value, rfl, -⟩ := hsaw
  exact h

theorem may_writeStored {record : PendingTransfer} {write : StoreWrite}
    (h : Recorded record k) (hnone : write.credential = none) :
    May setup k (.storeWrite write) := by
  refine ⟨h.1, ?_⟩
  intro id c hsome
  rw [hnone] at hsome
  cases hsome

/-- With no login in the slot the record may go together with the shield. -/
theorem may_finish_of_noLogin {record : PendingTransfer} {mode : Mode}
    {declined : Option Fingerprint} (h : Recorded record k) (hlogin : k.login setup = none) :
    May setup k (.updateConfig (.writeFinished mode declined)) := by
  refine ⟨h.1, _, h.2, ?_⟩
  intro _ c _ hc
  rw [hlogin] at hc
  cases hc

theorem may_finish_of_apart {record : PendingTransfer} {mode : Mode}
    {declined : Option Fingerprint} {rows : List PoolRow} (h : Recorded record k)
    (hrows : k.rows = some rows)
    (hapart : ∀ c, k.login setup = some c →
      Apart setup record (rowFor record.rowId rows) c) :
    May setup k (.updateConfig (.writeFinished mode declined)) := by
  refine ⟨h.1, _, h.2, ?_⟩
  rintro _ c ⟨⟩ hc
  exact ⟨rows, hrows, hapart c hc⟩

theorem verifyRow_knows {record : PendingTransfer} (h : Recorded record k) :
    knowing.Returns (May setup) k (verifyRow record) fun verified k' =>
      k'.locked = true ∧ ∀ row, verified = some row → Proved record k' := by
  refine Learning.returns_bind (returns_plain trivial ?_)
  intro load
  refine Learning.returns_pure ⟨(sameBook_storeRead _ _).1.trans h.1, ?_⟩
  intro row hverified
  have hproves : k.proves load = some record := by
    simp only [Known.proves, h.2, hverified, Option.isSome_some, if_true]
  obtain ⟨hrow, hfingerprint⟩ := Option.filter_eq_some_iff.mp hverified
  have hknown : Known.PoolLoad.known load = some load.rows := by
    cases load with
    | ready rows => rfl
    | pendingMigration roster => cases hrow
    | error file reason => cases hrow
  have hlearn : k.learn (.storeRead .verifying) load =
      { k with rows := some load.rows, proved := some record } := by
    simp only [Known.learn, h.1, if_true, hproves, hknown]
  rw [hlearn]
  refine ⟨h, rfl, load.rows, rfl, ?_⟩
  rw [hrow]
  exact of_decide_eq_true hfingerprint

/-- What is known when the fence has said how the transfer ends. -/
def Finished (setup : Setup) (record : PendingTransfer) : FinishStep → Known → Prop
  | .step _, k | .foreignPlaceholder, k => k.locked = true
  | .untaggedPlaceholder, k => Recorded record k ∧ k.login setup = none

theorem writePlaceholder_knows {mode : Mode} {record : PendingTransfer}
    {operation : CompletedOperation} (h : Proved record k) :
    knowing.Returns (May setup) k (writePlaceholder setup mode record operation)
      (Finished setup record) := by
  refine Learning.returns_bind (returns_plain trivial ?_)
  intro last
  have hlast : Proved record (k.learn .slotGet last) := h
  split_ifs with hpair
  · exact Learning.returns_pure hlast.1.1
  · have hset : May setup (k.learn .slotGet last) .slotSet := by
      refine ⟨record, h.1.2, h.2.1, ?_⟩
      exact congrArg some (Classical.not_not.mp hpair)
    have hwrite : knowing.Returns (May setup) (k.learn .slotGet last) (Throwing.attempt slotSet)
        fun _ k' => Proved record k' := Learning.returns_attempt ⟨hset, fun _ => hlast⟩
    refine Learning.returns_bind (Learning.returns_mono hwrite ?_)
    rintro (e | ⟨⟩) k₁ hproved
    · cases e with
      | hostSlotChanged => exact Learning.returns_pure hproved.1.1
      | _ => exact Learning.returns_throw
    · refine Learning.returns_bind (returns_plain trivial ?_)
      intro readback
      have hproved : Proved record (k₁.learn .slotGet readback) := hproved
      split_ifs with hplaceholder
      · exact Learning.returns_pure hproved.1.1
      · have hlogin : (k₁.learn .slotGet readback).login setup = none := by
          cases readback with
          | none => rfl
          | some value =>
              have his : isPoolPlaceholder value = true := by simpa using hplaceholder
              exact loginIn_placeholder his
        split
        · exact Learning.returns_pure ⟨hproved.1, hlogin⟩
        · split_ifs
          · exact Learning.returns_pure hproved.1.1
          · refine Learning.returns_bind (returns_throwing ?_ ?_)
            · exact may_finish_of_noLogin hproved.1 hlogin
            · rintro _ _ ⟨⟩
              exact Learning.returns_pure hproved.1.1

theorem finishUnderMainLock_knows {mode : Mode} {record : PendingTransfer}
    {operation : CompletedOperation} (h : Proved record k) :
    knowing.Returns (May setup) k (finishUnderMainLock setup mode record operation)
      (Finished setup record) := by
  refine Learning.returns_bind (Learning.returns_mono readSlot_knows ?_)
  intro current k₁ hsaw
  have hproved : Proved record k₁ := h.saw hsaw
  have hlogin := hsaw.login_eq
  split
  · exact Learning.returns_pure hproved.1.1
  · exact Learning.returns_pure ⟨hproved.1, hlogin⟩
  · split_ifs
    · exact Learning.returns_pure hproved.1.1
    · refine Learning.returns_bind (returns_throwing (may_finish_of_noLogin hproved.1 hlogin) ?_)
      rintro _ _ ⟨⟩
      exact Learning.returns_pure hproved.1.1
  · refine Learning.returns_bind (returns_plain trivial fun _ => ?_)
    split_ifs with hempty hrenewed hmoved
    · exact Learning.returns_pure hproved.1.1
    · refine Learning.returns_bind (returns_throwing hproved.1.1 ?_)
      rintro _ _ ⟨⟩
      exact Learning.returns_pure hproved.1.1
    · obtain ⟨-, -, rows, hrows, hfingerprint⟩ := id hproved
      refine Learning.returns_bind (returns_throwing
        (may_finish_of_apart hproved.1 hrows ?_) ?_)
      · intro c hc
        -- another login than the recorded one, and not a renewed one of its account
        have hfound : current.login = some c := hlogin.symm.trans hc
        cases current with
        | real found =>
            cases hfound
            have hother : c.fingerprint ≠ record.slotFingerprint := by
              intro heq
              rw [recordedLogin, if_pos heq] at hmoved
              cases hmoved
            refine .inr ⟨hother, ?_, hfingerprint⟩
            rintro ⟨hsome, hsame⟩
            refine hrenewed ?_
            rw [renewedLogin, Bool.and_eq_true, Bool.and_eq_true]
            exact ⟨⟨decide_eq_true hother, hsome⟩, decide_eq_true hsame⟩
        | _ => cases hfound
      · rintro _ _ ⟨⟩
        exact Learning.returns_pure hproved.1.1
    · exact writePlaceholder_knows hproved

theorem returns_withLock {lock : Lock} {body : Attempt α} {Q : α → Known → Prop}
    (hbody : knowing.Returns (May setup) (k.learn (.acquire lock) (.ok ())) body fun a k' =>
      Q a (k'.learn (.release lock) ())) :
    knowing.Returns (May setup) k (withLock lock body) Q := by
  refine Learning.returns_bind (returns_throwing trivial ?_)
  rintro _ ⟨⟩ ⟨⟩
  refine Learning.returns_bind (returns_attempt_ok hbody ?_ ?_)
  · intro a k' hQ
    refine Learning.returns_bind (returns_plain trivial fun _ => ?_)
    exact Learning.returns_pure hQ
  · intro e k'
    refine Learning.returns_bind (returns_plain trivial fun _ => ?_)
    exact Learning.returns_throw

theorem settle_knows {mode : Mode} {record : PendingTransfer} {row : PoolRow}
    {finished : FinishStep} (h : Finished setup record finished k) :
    knowing.Returns (May setup) k (settle mode record row finished) fun _ k' =>
      k'.locked = true := by
  cases finished with
  | step s => exact Learning.returns_pure h
  | untaggedPlaceholder =>
      obtain ⟨hrecorded, hlogin⟩ := h
      refine Learning.returns_bind (returns_throwing (may_writeStored hrecorded rfl) ?_)
      intro _ _ _
      refine Learning.returns_bind (returns_throwing ?_ ?_)
      · have hdisabled : Recorded record { k with rows := none } := hrecorded
        exact may_finish_of_noLogin hdisabled hlogin
      · rintro _ _ ⟨⟩
        exact Learning.returns_pure hrecorded.1
  | foreignPlaceholder =>
      have hlocked : k.locked = true := h
      have hremove : May setup k
          (.storeWrite (.remove record.rowId record.credentialFingerprint)) := by
        refine ⟨hlocked, ?_⟩
        rintro id c ⟨⟩
      refine Learning.returns_bind (returns_throwing hremove ?_)
      intro _ _ _
      refine Learning.returns_bind (returns_throwing hlocked ?_)
      rintro _ _ ⟨⟩
      refine Learning.returns_bind (returns_throwing trivial ?_)
      rintro _ _ ⟨⟩
      exact Learning.returns_pure hlocked

theorem completeTransfer_knows {mode : Mode} {record : PendingTransfer}
    {operation : CompletedOperation} (h : Recorded record k) :
    knowing.Returns (May setup) k (completeTransfer setup mode record operation)
      fun _ k' => k'.locked = true := by
  refine Learning.returns_bind (Learning.returns_mono (verifyRow_knows h) ?_)
  rintro verified k₁ ⟨hlocked, hverified⟩
  cases verified with
  | none => exact Learning.returns_pure hlocked
  | some row =>
      have hproved : Proved record k₁ := hverified row rfl
      have hcarry : knowing.Returns (May setup) k₁
          (onlyIf record.carryLegacyMain (callThrowing (.carryLegacyMainState row) id))
          fun _ k' => Proved record k' :=
        returns_onlyIf (fun _ => returns_throwing trivial fun _ _ _ => hproved) fun _ => hproved
      refine Learning.returns_bind (Learning.returns_mono hcarry ?_)
      intro _ k₂ hproved
      have hfinish : knowing.Returns (May setup) k₂
          (finishTransfer setup mode record operation) (Finished setup record) :=
        returns_withLock (finishUnderMainLock_knows hproved)
      refine Learning.returns_bind (Learning.returns_mono hfinish ?_)
      intro finished k₃ hfinished
      exact settle_knows hfinished

theorem applyToRow_knows {record : PendingTransfer} {credential : SlotCredential}
    (h : Recorded record k) (hslot : ∃ slot, k.login setup = some slot ∧
      slot.fingerprint = credential.fingerprint) :
    knowing.Returns (May setup) k (applyToRow record credential) fun _ k' =>
      Recorded record k' := by
  have hwrite : ∀ {k₁ : Known} {write : StoreWrite} {id : String},
      write.credential = some (id, credential) → Recorded record k₁ →
      (∃ slot, k₁.login setup = some slot ∧ slot.fingerprint = credential.fingerprint) →
      knowing.Returns (May setup) k₁ (storeWrite write) fun _ k' => Recorded record k' := by
    intro k₁ write id hcredential hrecorded hlogin
    refine returns_throwing ⟨hrecorded.1, ?_⟩ fun _ _ _ => hrecorded
    intro id' c hsome
    rw [hcredential] at hsome
    cases hsome
    exact hlogin
  unfold applyToRow
  split
  · exact hwrite rfl h hslot
  · exact hwrite rfl h hslot
  · refine Learning.returns_bind (returns_plain trivial ?_)
    intro load
    have hread : k.learn (.storeRead .rotating) load =
        { k with rows := Known.PoolLoad.known load, proved := k.proves load } := by
      simp only [Known.learn, h.1, if_true]
    rw [hread]
    exact hwrite rfl h hslot

theorem moveRecorded_knows {mode : Mode} {record : PendingTransfer} {credential : SlotCredential}
    {operation : CompletedOperation} (h : Recorded record k)
    (hrecorded : credential.fingerprint = record.slotFingerprint) :
    knowing.Returns (May setup) k (moveRecorded setup mode record credential operation)
      fun _ k' => k'.locked = true := by
  refine Learning.returns_bind (returns_throwing trivial ?_)
  intro _ active _
  split
  · exact Learning.returns_pure h.1
  · refine Learning.returns_bind (Learning.returns_mono readSlot_knows ?_)
    intro confirmed k₁ hsaw
    have hrecord : Recorded record k₁ := by
      obtain ⟨value, rfl, -⟩ := hsaw
      exact h
    split_ifs with hmoved
    · exact Learning.returns_pure hrecord.1
    · have hconfirmed : (recordedLogin record confirmed).isSome := by
        cases hlogin : recordedLogin record confirmed with
        | none =>
            rw [hlogin] at hmoved
            exact (hmoved rfl).elim
        | some c => rfl
      obtain ⟨slot, hslot⟩ := Option.isSome_iff_exists.mp hconfirmed
      obtain ⟨hlogin, hfingerprint⟩ := recordedLogin_some hslot
      have hfits : ∃ slot, k₁.login setup = some slot ∧
          slot.fingerprint = credential.fingerprint :=
        ⟨slot, hsaw.login_eq.trans hlogin, hfingerprint.trans hrecorded.symm⟩
      refine Learning.returns_bind (Learning.returns_mono (applyToRow_knows hrecord hfits) ?_)
      intro _ k₂ hrecord₂
      exact completeTransfer_knows hrecord₂

theorem carryOut_knows {mode : Mode} {book : PoolMigrationBookkeeping} {rows : List PoolRow}
    {first : Plan} (h : PlannedFrom setup book rows first k) :
    knowing.Returns (May setup) k (carryOut setup mode first) fun _ k' => k'.locked = true := by
  have hfits := h.fits
  cases first with
  | nothing slot =>
      have hfinish : ∀ declined, May setup k (.updateConfig (.writeFinished mode declined)) := by
        intro declined
        refine ⟨h.locked, _, h.pending, ?_⟩
        intro record c hpending _
        rw [show book.pending = none from hfits] at hpending
        cases hpending
      have hmarked : knowing.Returns (May setup) k
          (onlyIf (mode = .migrate) (updateConfig (.writeFinished mode none)))
          fun _ k' => k'.locked = true := by
        refine returns_onlyIf (fun _ => returns_throwing (hfinish none) ?_) fun _ => h.locked
        rintro _ _ ⟨⟩
        exact h.locked
      refine Learning.returns_bind (Learning.returns_mono hmarked ?_)
      intro _ k' hlocked
      exact Learning.returns_pure hlocked
  | dropRecord =>
      refine Learning.returns_bind (returns_throwing h.locked ?_)
      rintro _ _ ⟨⟩
      exact Learning.returns_pure h.locked
  | ambiguous record =>
      obtain ⟨hpending, ⟨slot, hlogin, hslot⟩, hrow⟩ := hfits
      have hrecord : Recorded record k := ⟨h.locked, hpending ▸ h.pending⟩
      refine Learning.returns_bind (returns_throwing
        (may_finish_of_apart hrecord h.read ?_) ?_)
      · intro c hc
        cases hlogin.symm.trans hc
        exact .inl ⟨hslot, hrow⟩
      · rintro _ _ ⟨⟩
        exact Learning.returns_pure h.locked
  | finish record =>
      have hpending : book.pending = some record := hfits
      exact completeTransfer_knows ⟨h.locked, hpending ▸ h.pending⟩
  | transfer record credential fresh =>
      cases fresh with
      | true =>
          obtain ⟨hlogin, hnames⟩ := hfits
          refine Learning.returns_bind (returns_throwing
            ⟨h.locked, credential, hlogin, hnames⟩ ?_)
          rintro _ _ ⟨⟩
          refine moveRecorded_knows ⟨h.locked, ?_⟩ hnames.slot.symm
          simp only [Known.learn, h.pending, Option.map_some, ConfigUpdate.pendingAfter]
      | false =>
          obtain ⟨hpending, hrecorded⟩ := hfits
          exact moveRecorded_knows ⟨h.locked, hpending ▸ h.pending⟩ hrecorded

/-! ### The run -/

theorem planAndAct_knows {mode : Mode} {polls : ℕ} {book : PoolMigrationBookkeeping}
    {idHint : Option String} (hlocked : k.locked = true)
    (hpending : k.pending = some book.pending) :
    knowing.Returns (May setup) k (planAndAct setup mode polls book idHint) fun acted k' =>
      acted.1 = .restart → k'.locked = true := by
  have hended : ∀ {k₁ : Known} (o : PoolTransferOutcome), knowing.Returns (May setup) k₁
      (pure (.outcome o, idHint) : Attempt (RunStep × Option String)) fun acted k' =>
        acted.1 = .restart → k'.locked = true :=
    fun o => Learning.returns_pure fun h => by cases h
  refine Learning.returns_bind (Learning.returns_mono (loadRows_knows book hlocked) ?_)
  rintro loaded k₁ ⟨hsame, hrows⟩
  cases loaded with
  | inl o => exact hended o
  | inr rows =>
      have hlocked₁ : k₁.locked = true := hsame.1.trans hlocked
      have hpending₁ : k₁.pending = some book.pending := hsame.2.trans hpending
      refine Learning.returns_bind (Learning.returns_mono
        (makePlan_knows hlocked₁ hpending₁ (hrows rows rfl)) ?_)
      intro planned k₂ hplanned
      cases planned with
      | inl o => exact hended o
      | inr first =>
          refine Learning.returns_bind (Learning.returns_mono
            (carryOut_knows (hplanned first rfl)) ?_)
          intro step k₃ hlocked₃
          exact Learning.returns_pure fun _ => hlocked₃

theorem repairShield_knows (c : Bool) :
    knowing.Returns (May setup) k (onlyIf c (updateConfig .repairShield)) fun _ _ => True :=
  returns_onlyIf (fun _ => returns_throwing trivial fun _ _ _ => trivial) fun _ => trivial

theorem runLockedFrom_knows {mode : Mode} {polls attempts : ℕ} {idHint : Option String}
    (hlocked : k.locked = true) :
    knowing.Returns (May setup) k (runLockedFrom setup mode polls attempts idHint)
      fun _ _ => True := by
  induction attempts generalizing k idHint with
  | zero => exact Learning.returns_pure trivial
  | succ attempts ih =>
      refine Learning.returns_bind (returns_throwing trivial ?_)
      rintro _ config ⟨⟩
      have hread : k.learn .readConfig (.ok config) =
          { k with pending := some config.book.pending, proved := none } := by
        simp only [Known.learn, hlocked, if_true]
      rw [hread]
      refine Learning.returns_bind (Learning.returns_mono (gate_knows mode config) ?_)
      rintro early k₁ ⟨hlocked₁, hpending₁⟩
      cases early with
      | some early =>
          refine Learning.returns_bind (Learning.returns_mono (repairShield_knows _) ?_)
          intro _ _ _
          exact Learning.returns_pure trivial
      | none =>
          refine Learning.returns_bind (Learning.returns_mono
            (planAndAct_knows (hlocked₁.trans hlocked) hpending₁) ?_)
          rintro ⟨step, idHint'⟩ k₂ hrestart
          cases step with
          | outcome o => exact Learning.returns_pure trivial
          | restart => exact ih (hrestart rfl)

theorem outcomeOfThrown_knows (result : Except Thrown PoolTransferOutcome) :
    knowing.Returns (May setup) k (outcomeOfThrown result) fun _ _ => True := by
  unfold outcomeOfThrown
  split
  · exact Learning.returns_pure trivial
  · exact Learning.returns_pure trivial
  · exact Learning.returns_pure trivial
  · exact Learning.returns_throw

theorem runWithLocks_knows {mode : Mode} {polls : ℕ} :
    knowing.Returns (May setup) k (runWithLocks setup mode polls) fun _ _ => True := by
  have hlocked : knowing.Returns (May setup) k
      (withLock .slotTransfer (withLock .poolMigration (runLocked setup mode polls)))
      fun _ _ => True :=
    returns_withLock (returns_withLock (runLockedFrom_knows rfl))
  exact Learning.returns_bind (returns_attempt_ok hlocked
    (fun o _ _ => outcomeOfThrown_knows (.ok o)) fun e _ => outcomeOfThrown_knows (.error e))

/-- A migration or an adoption makes no call without what the call needs. -/
theorem run_justified {mode : Mode} {polls : ℕ} :
    knowing.Returns (May setup) k (run setup mode polls) fun _ _ => True := by
  refine Learning.returns_bind (returns_plain trivial ?_)
  intro disabled
  cases disabled with
  | some reason => exact Learning.returns_pure trivial
  | none =>
      refine Learning.returns_bind (returns_attempt_ok (Q := fun _ _ => True)
        (returns_throwing trivial fun _ _ _ => trivial) ?_ ?_)
      · intro config k₁ _
        refine Learning.returns_bind (Learning.returns_mono (gate_knows mode config) ?_)
        intro early k₂ _
        cases early with
        | some early =>
            refine Learning.returns_bind (Learning.returns_mono (repairShield_knows _) ?_)
            intro _ _ _
            exact Learning.returns_pure trivial
        | none =>
            have hfence : knowing.Returns (May setup) k₂ (fenceShut mode) fun _ _ => True := by
              unfold fenceShut
              split_ifs
              · exact returns_plain trivial fun _ => trivial
              · exact Learning.returns_pure trivial
            refine Learning.returns_bind (Learning.returns_mono hfence ?_)
            intro blocked k₃ _
            split_ifs
            · exact Learning.returns_pure trivial
            · exact runWithLocks_knows
      · intro e k₁
        cases e with
        | other message => exact Learning.returns_pure trivial
        | _ => exact Learning.returns_pure trivial

end Program

end PoolMigration
