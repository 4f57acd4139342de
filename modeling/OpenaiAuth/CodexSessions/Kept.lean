import OpenaiAuth.CodexSessions.Saves

/-! # What the saves keep

In runs where no read that fails drops a deletion or hides the file's entries, and where no
deletion is done with while another process has the session unsaved: each save changes only
what its own process created or deleted, and once every process has completed a save after
its last change, the file holds what it held at first and what was created, without what
was deleted.
-/

namespace CodexSessions

open Js

/-! ## What a process has yet to write -/

/-- The changes of the running save. -/
def Phase.running : Phase → Option Changes
  | .idle => none
  | .locking changes => some changes
  | .holding changes => some changes
  | .writing changes _ => some changes
  | .releasing changes _ => some changes
  | .settling changes _ => some changes

/-- The changes that the file holds already, though they are still pending. -/
def Phase.written : Phase → Changes
  | .releasing changes true => changes
  | .settling changes true => changes
  | _ => ⟨[], []⟩

def Phase.Locks : Phase → Prop
  | .holding _ => True
  | .writing _ _ => True
  | .releasing _ _ => True
  | _ => False

/-- A session that the process created and has yet to write. -/
def CodexSessionStore.Unsaved (store : CodexSessionStore) (id : String) : Prop :=
  id ∈ store.dirty ∧ id ∉ store.phase.written.created.map Prod.fst

/-- A session that the process deleted and has yet to remove from the file. -/
def CodexSessionStore.Owes (store : CodexSessionStore) (id : String) : Prop :=
  (id ∈ store.deleted ∨ id ∈ store.unconfirmed) ∧ id ∉ store.phase.written.deleted

instance (store : CodexSessionStore) (id : String) : Decidable (store.Unsaved id) := by
  unfold CodexSessionStore.Unsaved
  infer_instance

namespace World

variable {P : Type*} [DecidableEq P]

def entry (w : World P) (id : String) : Option String := (w.file.getD .empty).get id

def Unsaved (w : World P) (p : P) (id : String) : Prop := ∃ store ∈ w.store p, store.Unsaved id

def Owes (w : World P) (p : P) (id : String) : Prop := ∃ store ∈ w.store p, store.Owes id

/-- The host never reuses a session id. -/
def Fresh (w : World P) : Step P → Prop
  | .get p sessionID _ _ =>
      ∀ store ∈ w.store p, store.sessions.get sessionID = none → ∀ q, (q, sessionID) ∉ w.removed
  | _ => True

/-- No failed read drops a deletion or hides the file's entries, and no deletion is dropped
or written while another process has the session unsaved. -/
def Careful (w : World P) : Step P → Prop
  | .begin p failed _ =>
      ∀ store ∈ w.store p, ∀ id ∈ store.unconfirmed,
        ((readCodexSessionThreads w.file failed).getD .empty).get id = none →
          w.entry id = none ∧ ∀ q, q ≠ p → ¬w.Unsaved q id
  | .reread _ failed => failed = true → w.file = none
  | .write p failed =>
      ∀ store ∈ w.store p, ∀ changes threads, store.phase = .writing changes threads →
        failed = false ∨ (changes.apply threads).2 = false →
          ∀ id ∈ changes.deleted, ∀ q, q ≠ p → ¬w.Unsaved q id
  | _ => True

def run (w : World P) : List (Step P) → Option (World P)
  | [] => some w
  | step :: steps => (w.step step).bind fun w => w.run steps

/-- Every step of the run is as `ok` has it. -/
def Along (ok : World P → Step P → Prop) (w : World P) : List (Step P) → Prop
  | [] => True
  | step :: steps => ok w step ∧ ∀ w' ∈ w.step step, Along ok w' steps

/-! ## The invariant -/

/-- What the running save took, against what the process has now. -/
structure Taken (w : World P) (p : P) (store : CodexSessionStore) (changes : Changes) : Prop where
  created : ∀ id metadata, (id, metadata) ∈ changes.created →
    (p, id, metadata.threadID) ∈ w.created ∧ id ∉ changes.deleted ∧
      ((id ∈ store.dirty ∧ store.sessions.get id = some metadata) ∨ id ∈ store.deleted)
  deleted : ∀ id ∈ changes.deleted, id ∈ store.deleted
  covered : w.covered p = true → store.unconfirmed = [] ∧
    (∀ id ∈ store.dirty, id ∈ changes.created.map Prod.fst) ∧
      ∀ id ∈ store.deleted, id ∈ changes.deleted

/-- A process: what it has pending is what it created and deleted. -/
structure Own (w : World P) (p : P) (store : CodexSessionStore) : Prop where
  dirty : ∀ id ∈ store.dirty, ∃ metadata,
    store.sessions.get id = some metadata ∧ (p, id, metadata.threadID) ∈ w.created
  pending : ∀ id, id ∈ store.deleted ∨ id ∈ store.unconfirmed →
    store.sessions.get id = none ∧ (p, id) ∈ w.removed
  taken : ∀ changes, store.phase.running = some changes → Taken w p store changes
  threads : ∀ changes threads, store.phase = .writing changes threads →
    ∀ id, threads.get id = w.entry id
  lock : store.phase.Locks → w.lock = some p
  clean : w.clean p = true → store.dirty = [] ∧ store.deleted = [] ∧ store.unconfirmed = []

/-- The file: every session that was created is there or is yet to be written, and every
session that was deleted is not there, or is yet to be removed. -/
structure Kept (file : Option (Table String)) (w : World P) : Prop where
  own : ∀ p, ∀ store ∈ w.store p, Own w p store
  sound : ∀ id thread, w.entry id = some thread →
    (file.getD .empty).get id = some thread ∨ ∃ p, (p, id, thread) ∈ w.created
  removed : ∀ p id, (p, id) ∈ w.removed →
    (w.entry id = none ∧ ∀ q, ¬w.Unsaved q id) ∨ ∃ q, w.Owes q id
  created : ∀ p id thread, (p, id, thread) ∈ w.created → (∀ q, (q, id) ∉ w.removed) →
    (∃ q thread, (q, id, thread) ∈ w.created ∧ w.entry id = some thread) ∨ ∃ q, w.Unsaved q id
  untouched : ∀ id, (∀ p thread, (p, id, thread) ∉ w.created) → (∀ p, (p, id) ∉ w.removed) →
    w.entry id = (file.getD .empty).get id

/-! ## Steps that change neither the file nor the sessions -/

section Frame

variable {file : Option (Table String)} {w w' : World P} {p q : P} {store store' : CodexSessionStore}
  {id : String}

theorem mem_store (hstores : w'.store = Function.update w.store p (some store'))
    {other : CodexSessionStore} :
    other ∈ w'.store q ↔ (q = p ∧ other = store') ∨ (q ≠ p ∧ other ∈ w.store q) := by
  rw [hstores]
  by_cases hq : q = p
  · subst hq
    simp [eq_comm]
  · simp [hq]

theorem unsaved_iff (hstores : w'.store = Function.update w.store p (some store')) :
    w'.Unsaved q id ↔ (q = p ∧ store'.Unsaved id) ∨ (q ≠ p ∧ w.Unsaved q id) := by
  constructor
  · rintro ⟨other, hmem, hunsaved⟩
    rcases (mem_store hstores).mp hmem with ⟨hq, rfl⟩ | ⟨hq, hmem⟩
    · exact .inl ⟨hq, hunsaved⟩
    · exact .inr ⟨hq, other, hmem, hunsaved⟩
  · rintro (⟨hq, hunsaved⟩ | ⟨hq, other, hmem, hunsaved⟩)
    · exact ⟨store', (mem_store hstores).mpr (.inl ⟨hq, rfl⟩), hunsaved⟩
    · exact ⟨other, (mem_store hstores).mpr (.inr ⟨hq, hmem⟩), hunsaved⟩

theorem owes_iff (hstores : w'.store = Function.update w.store p (some store')) :
    w'.Owes q id ↔ (q = p ∧ store'.Owes id) ∨ (q ≠ p ∧ w.Owes q id) := by
  constructor
  · rintro ⟨other, hmem, howes⟩
    rcases (mem_store hstores).mp hmem with ⟨hq, rfl⟩ | ⟨hq, hmem⟩
    · exact .inl ⟨hq, howes⟩
    · exact .inr ⟨hq, other, hmem, howes⟩
  · rintro (⟨hq, howes⟩ | ⟨hq, other, hmem, howes⟩)
    · exact ⟨store', (mem_store hstores).mpr (.inl ⟨hq, rfl⟩), howes⟩
    · exact ⟨other, (mem_store hstores).mpr (.inr ⟨hq, hmem⟩), howes⟩

omit [DecidableEq P] in
theorem unsaved_self (hstore : w.store p = some store) : w.Unsaved p id ↔ store.Unsaved id := by
  simp [Unsaved, hstore]

omit [DecidableEq P] in
theorem owes_self (hstore : w.store p = some store) : w.Owes p id ↔ store.Owes id := by
  simp [Owes, hstore]

omit [DecidableEq P] in
/-- What another process does leaves this one's claims as they are, when it leaves the file
as this one read it, and the lock. -/
theorem Own.frame (h : Own w q store) (hcreated : ∀ entry ∈ w.created, entry ∈ w'.created)
    (hremoved : ∀ entry ∈ w.removed, entry ∈ w'.removed)
    (hcovered : w'.covered q = w.covered q) (hclean : w'.clean q = w.clean q)
    (hthreads : store.phase.Locks → ∀ id, w'.entry id = w.entry id)
    (hlock : w.lock = some q → w'.lock = some q) : Own w' q store where
  dirty id hid := by
    obtain ⟨metadata, hget, hmem⟩ := h.dirty id hid
    exact ⟨metadata, hget, hcreated _ hmem⟩
  pending id hid := ⟨(h.pending id hid).1, hremoved _ (h.pending id hid).2⟩
  taken changes hrunning :=
    { created := fun id metadata hmem =>
        have htaken := (h.taken changes hrunning).created id metadata hmem
        ⟨hcreated _ htaken.1, htaken.2⟩
      deleted := (h.taken changes hrunning).deleted
      covered := fun hcov => (h.taken changes hrunning).covered (hcovered ▸ hcov) }
  threads changes threads hphase id := by
    rw [hthreads (by rw [hphase]; trivial) id]
    exact h.threads changes threads hphase id
  lock hlocks := hlock (h.lock hlocks)
  clean hcl := h.clean (hclean ▸ hcl)

/-- A step of a process that changes nothing but the process: what it has yet to write is
the same, and a deletion is given up only where there is nothing left to remove. -/
theorem Kept.quiet (h : Kept file w) (hstores : w'.store = Function.update w.store p (some store'))
    (hfile : w'.file = w.file) (hcreated : w'.created = w.created)
    (hremoved : w'.removed = w.removed) (hcovered : ∀ q, q ≠ p → w'.covered q = w.covered q)
    (hclean : ∀ q, q ≠ p → w'.clean q = w.clean q)
    (hlock : ∀ q, q ≠ p → w.lock = some q → w'.lock = some q) (hown : Own w' p store')
    (hunsaved : ∀ id, store'.Unsaved id ↔ w.Unsaved p id)
    (howes : ∀ id, w.Owes p id → store'.Owes id ∨ (w.entry id = none ∧ ∀ q, ¬w.Unsaved q id)) :
    Kept file w' := by
  have hentry : ∀ id, w'.entry id = w.entry id := fun id => by rw [entry, hfile, entry]
  have hsame : ∀ q id, w'.Unsaved q id ↔ w.Unsaved q id := by
    intro q id
    rw [unsaved_iff hstores, hunsaved]
    by_cases hq : q = p
    · simp [hq]
    · simp [hq]
  refine ⟨?_, ?_, ?_, ?_, ?_⟩
  · intro q other hmem
    rcases (mem_store hstores).mp hmem with ⟨rfl, rfl⟩ | ⟨hq, hmem⟩
    · exact hown
    · exact (h.own q other hmem).frame (fun _ hin => hcreated ▸ hin) (fun _ hin => hremoved ▸ hin)
        (hcovered q hq) (hclean q hq) (fun _ => hentry) (hlock q hq)
  · intro id thread hget
    rw [hcreated]
    exact h.sound id thread (hentry id ▸ hget)
  · intro q id hmem
    simp only [hentry, hsame]
    rcases h.removed q id (hremoved ▸ hmem) with hgone | ⟨r, hr⟩
    · exact .inl hgone
    · by_cases hrp : r = p
      · subst hrp
        rcases howes id hr with hstill | hgone
        · exact .inr ⟨r, (owes_iff hstores).mpr (.inl ⟨rfl, hstill⟩)⟩
        · exact .inl hgone
      · exact .inr ⟨r, (owes_iff hstores).mpr (.inr ⟨hrp, hr⟩)⟩
  · intro q id thread hmem hnot
    simp only [hentry, hsame, hcreated]
    exact h.created q id thread (hcreated ▸ hmem) (hremoved ▸ hnot)
  · intro id hnew hkept
    rw [hentry]
    exact h.untouched id (hcreated ▸ hnew) (hremoved ▸ hkept)

/-- The same for a step that leaves what is pending, and what the save has written. -/
theorem Kept.pending (h : Kept file w) (hstore : w.store p = some store)
    (hstores : w'.store = Function.update w.store p (some store'))
    (hfile : w'.file = w.file) (hcreated : w'.created = w.created)
    (hremoved : w'.removed = w.removed) (hcovered : ∀ q, q ≠ p → w'.covered q = w.covered q)
    (hclean : ∀ q, q ≠ p → w'.clean q = w.clean q)
    (hlock : ∀ q, q ≠ p → w.lock = some q → w'.lock = some q) (hown : Own w' p store')
    (hdirty : store'.dirty = store.dirty) (hdeleted : store'.deleted = store.deleted)
    (hunconfirmed : store'.unconfirmed = store.unconfirmed)
    (hwritten : store'.phase.written = store.phase.written) : Kept file w' := by
  refine h.quiet hstores hfile hcreated hremoved hcovered hclean hlock hown (fun id => ?_) fun id howes => ?_
  · rw [unsaved_self hstore, CodexSessionStore.Unsaved, CodexSessionStore.Unsaved, hdirty, hwritten]
  · rw [owes_self hstore] at howes
    rw [CodexSessionStore.Owes, hdeleted, hunconfirmed, hwritten]
    exact .inl howes

end Frame

section Steps

variable {file : Option (Table String)} {w w' : World P} {p : P}

theorem Kept.start {failed : Bool} {turnID : String → String} (h : Kept file w)
    (hstep : w.step (.start p failed turnID) = some w') : Kept file w' := by
  obtain ⟨hdirty, hdeleted, hunconfirmed, hphase⟩ := load_empty w.file failed turnID
  simp only [step] at hstep
  cases hstore : w.store p with
  | some _ => rw [hstore] at hstep; cases hstep
  | none =>
      rw [hstore] at hstep
      cases hstep
      refine h.quiet rfl rfl rfl rfl (fun _ _ => rfl) (fun _ _ => rfl) (fun _ _ hlock => hlock) ?_
        (fun id => ?_) fun id howes => ?_
      · refine ⟨?_, ?_, ?_, ?_, ?_, fun _ => ⟨hdirty, hdeleted, hunconfirmed⟩⟩
        · rw [hdirty]
          exact fun _ hid => (List.not_mem_nil hid).elim
        · rw [hdeleted, hunconfirmed]
          rintro _ (hid | hid) <;> exact (List.not_mem_nil hid).elim
        · rw [hphase]
          exact fun _ hrunning => by cases hrunning
        · rw [hphase]
          exact fun _ _ heq => Phase.noConfusion heq
        · rw [hphase]
          exact False.elim
      · simp [CodexSessionStore.Unsaved, hdirty, Unsaved, hstore]
      · simp [Owes, hstore] at howes

omit [DecidableEq P] in
/-- A change of the timer, the queue or the lock wait. -/
theorem Own.of_pending {store store' : CodexSessionStore} (h : Own w p store)
    (hsessions : store'.sessions = store.sessions) (hdirty : store'.dirty = store.dirty)
    (hdeleted : store'.deleted = store.deleted)
    (hunconfirmed : store'.unconfirmed = store.unconfirmed)
    (hcreated : w'.created = w.created) (hremoved : w'.removed = w.removed)
    (hcovered : w'.covered p = w.covered p) (hclean : w'.clean p = w.clean p)
    (hrunning : ∀ changes, store'.phase.running = some changes →
      store.phase.running = some changes)
    (hthreads : ∀ changes threads, store'.phase = .writing changes threads →
      ∀ id, threads.get id = w'.entry id)
    (hlock : store'.phase.Locks → w'.lock = some p) : Own w' p store' where
  dirty := by
    rw [hdirty, hsessions, hcreated]
    exact h.dirty
  pending := by
    rw [hdeleted, hunconfirmed, hsessions, hremoved]
    exact h.pending
  taken changes hc := by
    have htaken := h.taken changes (hrunning changes hc)
    refine ⟨?_, ?_, ?_⟩
    · rw [hcreated, hsessions, hdirty, hdeleted]
      exact htaken.created
    · rw [hdeleted]
      exact htaken.deleted
    · rw [hcovered, hunconfirmed, hdirty, hdeleted]
      exact htaken.covered
  threads := hthreads
  lock := hlock
  clean := by
    rw [hclean, hdirty, hdeleted, hunconfirmed]
    exact h.clean

/-- What is pending stays so where a save is called, waits, gets the lock or reads. -/
theorem Kept.wait {store store' : CodexSessionStore} (h : Kept file w)
    (hstore : w.store p = some store)
    (hstores : w'.store = Function.update w.store p (some store'))
    (hfile : w'.file = w.file) (hcreated : w'.created = w.created)
    (hremoved : w'.removed = w.removed) (hcovered : w'.covered = w.covered)
    (hclean : w'.clean = w.clean)
    (hlock : ∀ q, q ≠ p → w.lock = some q → w'.lock = some q)
    (hsessions : store'.sessions = store.sessions)
    (hdirty : store'.dirty = store.dirty) (hdeleted : store'.deleted = store.deleted)
    (hunconfirmed : store'.unconfirmed = store.unconfirmed)
    (hwritten : store'.phase.written = store.phase.written)
    (hrunning : ∀ changes, store'.phase.running = some changes →
      store.phase.running = some changes)
    (hthreads : ∀ changes threads, store'.phase = .writing changes threads →
      ∀ id, threads.get id = w'.entry id)
    (hlocks : store'.phase.Locks → w'.lock = some p) : Kept file w' :=
  h.pending hstore hstores hfile hcreated hremoved (fun q _ => by rw [hcovered])
    (fun q _ => by rw [hclean]) hlock
    ((h.own p store hstore).of_pending hsessions hdirty hdeleted hunconfirmed hcreated hremoved
      (by rw [hcovered]) (by rw [hclean]) hrunning hthreads hlocks)
    hdirty hdeleted hunconfirmed hwritten

theorem Kept.save {store : CodexSessionStore} (h : Kept file w) (hstore : w.store p = some store) :
    Kept file (w.put p store.save) :=
  h.wait hstore rfl rfl rfl rfl rfl rfl (fun _ _ hlock => hlock) rfl rfl rfl rfl rfl
    (fun _ hrunning => hrunning) (h.own p store hstore).threads (h.own p store hstore).lock

theorem Kept.locked {got : Bool} (h : Kept file w) (hstep : w.step (.locked p got) = some w') :
    Kept file w' := by
  simp only [step, Option.bind_eq_some_iff] at hstep
  obtain ⟨store, hstore, hstep⟩ := hstep
  cases hphase : store.phase <;> rw [hphase] at hstep <;> try cases hstep
  rename_i changes
  cases got with
  | false =>
      cases hstep
      exact h.wait hstore rfl rfl rfl rfl rfl rfl (fun _ _ hlock => hlock) rfl rfl rfl rfl
        (by rw [hphase]; rfl) (fun _ hrunning => by cases hrunning)
        (fun _ _ heq => Phase.noConfusion heq) False.elim
  | true =>
      cases hlock : w.lock with
      | some _ => simp [hlock] at hstep
      | none =>
          rw [hlock] at hstep
          cases hstep
          refine h.wait hstore rfl rfl rfl rfl rfl rfl (fun _ _ hheld => ?_) rfl rfl rfl rfl
            (by rw [hphase]; rfl) (fun _ hrunning => by rw [hphase]; exact hrunning)
            (fun _ _ heq => Phase.noConfusion heq) fun _ => rfl
          rw [hlock] at hheld
          cases hheld

theorem Kept.reread {failed : Bool} (h : Kept file w) (hcareful : w.Careful (.reread p failed))
    (hstep : w.step (.reread p failed) = some w') : Kept file w' := by
  simp only [step, Option.bind_eq_some_iff] at hstep
  obtain ⟨store, hstore, hstep⟩ := hstep
  cases hphase : store.phase <;> rw [hphase] at hstep <;> try cases hstep
  rename_i changes
  refine h.wait hstore rfl rfl rfl rfl rfl rfl (fun _ _ hlock => hlock) rfl rfl rfl rfl
    (by rw [hphase]; rfl) (fun _ hrunning => by rw [hphase]; exact hrunning)
    (fun _ threads heq id => ?_) fun _ => (h.own p store hstore).lock (by rw [hphase]; trivial)
  -- a read that fails finds as little as there is
  cases heq
  cases failed with
  | false => rfl
  | true => rw [entry, show (w.put p _).file = none from hcareful rfl]; rfl

theorem Kept.released (h : Kept file w) (hstep : w.step (.released p) = some w') :
    Kept file w' := by
  simp only [step, Option.bind_eq_some_iff] at hstep
  obtain ⟨store, hstore, hstep⟩ := hstep
  cases hphase : store.phase <;> rw [hphase] at hstep <;> try cases hstep
  rename_i changes saved
  have hlock := (h.own p store hstore).lock (by rw [hphase]; trivial)
  refine h.wait hstore rfl rfl rfl rfl rfl rfl (fun q hq hheld => ?_) rfl rfl rfl rfl
    (by rw [hphase]; cases saved <;> rfl) (fun _ hrunning => by rw [hphase]; exact hrunning)
    (fun _ _ heq => Phase.noConfusion heq) False.elim
  rw [hlock] at hheld
  exact (hq (Option.some.inj hheld).symm).elim

theorem begin_cases (store : CodexSessionStore) (threads : Option (Table String))
    (failed folderFailed : Bool) :
    store.begin threads failed folderFailed =
        { store with queued := false }.confirmDeletions threads failed ∨
      store.begin threads failed folderFailed =
        { { store with queued := false }.confirmDeletions threads failed with
          phase := .locking
            ({ store with queued := false }.confirmDeletions threads failed).changes } := by
  simp only [CodexSessionStore.begin]
  split_ifs
  · exact .inl rfl
  · exact .inl rfl
  · exact .inr rfl

omit [DecidableEq P] in
/-- The confirmed deletions are among the pending ones, and the others are dropped. -/
theorem Own.confirm {store : CodexSessionStore} {failed : Bool} {id : String} (h : Own w p store)
    (hid : id ∈ ({ store with queued := false }.confirmDeletions w.file failed).deleted) :
    store.sessions.get id = none ∧ (p, id) ∈ w.removed := by
  rcases mem_confirmed.mp hid with hid | ⟨hid, -, -⟩
  · exact h.pending id (.inl hid)
  · exact h.pending id (.inr hid)

theorem Kept.begin {failed folderFailed : Bool} (h : Kept file w)
    (hcareful : w.Careful (.begin p failed folderFailed))
    (hstep : w.step (.begin p failed folderFailed) = some w') : Kept file w' := by
  simp only [step, Option.bind_eq_some_iff] at hstep
  obtain ⟨store, hstore, hstep⟩ := hstep
  cases hqueued : store.queued <;> cases hphase : store.phase <;>
    rw [hqueued, hphase] at hstep <;> try cases hstep
  have hown := h.own p store hstore
  -- a deletion that is dropped has nothing left to remove
  have howes : ∀ id, store.Owes id →
      id ∈ ({ store with queued := false }.confirmDeletions w.file failed).deleted ∨
        (w.entry id = none ∧ ∀ q, ¬w.Unsaved q id) := by
    rintro id ⟨hid, -⟩
    by_cases hconfirmed :
        id ∈ ({ store with queued := false }.confirmDeletions w.file failed).deleted
    · exact .inl hconfirmed
    rw [mem_confirmed, not_or] at hconfirmed
    have hunconfirmed := hid.resolve_left hconfirmed.1
    have hnone := (hown.pending id hid).1
    have hlacks : ((readCodexSessionThreads w.file failed).getD .empty).get id = none := by
      by_contra hfound
      exact hconfirmed.2 ⟨hunconfirmed, Option.isSome_iff_ne_none.mpr hfound, by simp [hnone]⟩
    obtain ⟨hgone, hothers⟩ := hcareful store hstore id hunconfirmed hlacks
    refine .inr ⟨hgone, fun q hq => ?_⟩
    by_cases hqp : q = p
    · subst hqp
      rw [unsaved_self hstore] at hq
      obtain ⟨metadata, hget, -⟩ := hown.dirty id hq.1
      rw [hnone] at hget
      cases hget
    · exact hothers q hqp hq
  have hpending : ∀ id,
      id ∈ ({ store with queued := false }.confirmDeletions w.file failed).deleted ∨ id ∈ [] →
        store.sessions.get id = none ∧ (p, id) ∈ w.removed :=
    fun id hid => hown.confirm (hid.resolve_right List.not_mem_nil)
  rcases begin_cases store w.file failed folderFailed with hbegun | hbegun
  · -- there is nothing to save, or no folder for it
    simp only [hbegun, CodexSessionStore.confirmDeletions, hphase] at hstep
    cases hstep
    refine h.quiet rfl rfl rfl rfl (fun _ _ => rfl) (fun q hq => Function.update_of_ne hq _ _)
      (fun _ _ hlock => hlock) ?_ (fun id => ?_) fun id hid => ?_
    · refine ⟨hown.dirty, hpending, fun _ hrunning => (by cases hrunning),
        fun _ _ heq => Phase.noConfusion heq, False.elim, fun hclean => ?_⟩
      simp only [Function.update_self, Bool.or_eq_true, decide_eq_true_eq] at hclean
      rcases hclean with hclean | hempty
      · obtain ⟨hdirty, hdeleted, hunconfirmed⟩ := hown.clean hclean
        refine ⟨hdirty, ?_, rfl⟩
        rw [hunconfirmed]
        exact hdeleted
      · exact ⟨hempty.1, hempty.2, rfl⟩
    · rw [unsaved_self hstore, CodexSessionStore.Unsaved, CodexSessionStore.Unsaved, hphase]
    · rcases howes id ((owes_self hstore).mp hid) with hstill | hgone
      · exact .inl ⟨.inl hstill, List.not_mem_nil⟩
      · exact .inr hgone
  · simp only [hbegun, CodexSessionStore.confirmDeletions] at hstep
    cases hstep
    refine h.quiet rfl rfl rfl rfl (fun q hq => Function.update_of_ne hq _ _) (fun _ _ => rfl)
      (fun _ _ hlock => hlock) ?_ (fun id => ?_) fun id hid => ?_
    · refine ⟨hown.dirty, hpending, fun changes hrunning => ?_,
        fun _ _ heq => Phase.noConfusion heq, False.elim, fun hclean => ?_⟩
      · cases hrunning
        refine ⟨fun id metadata hmem => ?_, fun _ hid => hid, fun _ => ⟨rfl, fun id hid => ?_,
          fun _ hid => hid⟩⟩
        · obtain ⟨hid, hget⟩ := mem_changes_created.mp hmem
          obtain ⟨_, hget', hcreated⟩ := hown.dirty id hid
          obtain rfl := Option.some.inj (hget.symm.trans hget')
          refine ⟨hcreated, fun hdeleted => ?_, .inl ⟨hid, hget⟩⟩
          rw [(hpending id (.inl hdeleted)).1] at hget'
          cases hget'
        · obtain ⟨metadata, hget, -⟩ := hown.dirty id hid
          exact List.mem_map.mpr ⟨(id, metadata), mem_changes_created.mpr ⟨hid, hget⟩, rfl⟩
      · obtain ⟨hdirty, hdeleted, hunconfirmed⟩ := hown.clean hclean
        refine ⟨hdirty, ?_, rfl⟩
        rw [hunconfirmed]
        exact hdeleted
    · rw [unsaved_self hstore, CodexSessionStore.Unsaved, CodexSessionStore.Unsaved, hphase]
      rfl
    · rcases howes id ((owes_self hstore).mp hid) with hstill | hgone
      · exact .inl ⟨.inl hstill, List.not_mem_nil⟩
      · exact .inr hgone

/-! ## A session that is created or deleted -/

theorem written_created {phase : Phase} {id : String}
    (h : id ∈ phase.written.created.map Prod.fst) :
    ∃ changes metadata, phase.running = some changes ∧ (id, metadata) ∈ changes.created := by
  obtain ⟨entry, hmem, rfl⟩ := List.mem_map.mp h
  cases phase with
  | releasing changes saved =>
      cases saved
      · cases hmem
      · exact ⟨changes, entry.2, rfl, hmem⟩
  | settling changes saved =>
      cases saved
      · cases hmem
      · exact ⟨changes, entry.2, rfl, hmem⟩
  | _ => cases hmem

theorem written_deleted {phase : Phase} {id : String} (h : id ∈ phase.written.deleted) :
    ∃ changes, phase.running = some changes ∧ id ∈ changes.deleted := by
  cases phase with
  | releasing changes saved =>
      cases saved
      · cases h
      · exact ⟨changes, rfl, h⟩
  | settling changes saved =>
      cases saved
      · cases h
      · exact ⟨changes, rfl, h⟩
  | _ => cases h

omit [DecidableEq P] in
/-- A session that was taken as created, and that the process does not have any more, it
deleted. -/
theorem Own.taken_created {store : CodexSessionStore} {changes : Changes} {id : String}
    {metadata : CodexSessionMetadata} (h : Own w p store)
    (hrunning : store.phase.running = some changes) (hmem : (id, metadata) ∈ changes.created)
    (hnone : store.sessions.get id = none) : (p, id) ∈ w.removed := by
  rcases ((h.taken changes hrunning).created id metadata hmem).2.2 with ⟨-, hget⟩ | hdeleted
  · rw [hnone] at hget
    cases hget
  · exact (h.pending id (.inl hdeleted)).2

/-- What a new session changes: it is dirty, and in nobody's way. -/
theorem get_absent {store : CodexSessionStore} {sessionID : String} (threadID turnID : String)
    (hnone : store.sessions.get sessionID = none) (hdeleted : sessionID ∉ store.deleted)
    (hunconfirmed : sessionID ∉ store.unconfirmed) :
    (store.get sessionID threadID turnID).dirty = add sessionID store.dirty ∧
      (store.get sessionID threadID turnID).deleted = store.deleted ∧
      (store.get sessionID threadID turnID).unconfirmed = store.unconfirmed ∧
      (store.get sessionID threadID turnID).phase = store.phase ∧
      (∃ metadata, (store.get sessionID threadID turnID).sessions.get sessionID = some metadata ∧
        metadata.threadID = threadID) ∧
      ∀ id, id ≠ sessionID →
        (store.get sessionID threadID turnID).sessions.get id = store.sessions.get id := by
  have hremove : ∀ set, sessionID ∉ set → remove sessionID set = set := fun set hnot =>
    List.filter_eq_self.mpr fun id hid => decide_eq_true fun heq => hnot (heq ▸ hid)
  rw [CodexSessionStore.get, hnone]
  exact ⟨rfl, hremove _ hdeleted, hremove _ hunconfirmed, rfl, ⟨_, Table.get_set_self .., rfl⟩,
    fun id hne => Table.get_set_of_ne hne ..⟩

theorem Kept.get {sessionID threadID turnID : String} (h : Kept file w)
    (hfresh : w.Fresh (.get p sessionID threadID turnID))
    (hstep : w.step (.get p sessionID threadID turnID) = some w') : Kept file w' := by
  simp only [step, Option.map_eq_some_iff] at hstep
  obtain ⟨store, hstore, hstep⟩ := hstep
  cases hknown : store.sessions.get sessionID with
  | some _ =>
      rw [hknown] at hstep
      exact hstep ▸ h
  | none =>
      rw [hknown] at hstep
      have hown := h.own p store hstore
      have hnever : ∀ q, (q, sessionID) ∉ w.removed := hfresh store hstore hknown
      obtain ⟨hdirty, hdeleted, hunconfirmed, hphase, ⟨made, hmade, hthread⟩, hothers⟩ :=
        get_absent threadID turnID hknown
          (fun hin => hnever p (hown.pending _ (.inl hin)).2)
          (fun hin => hnever p (hown.pending _ (.inr hin)).2)
      obtain ⟨hstores, hentry, hcreated, hremoved, hlock⟩ :
          w'.store = Function.update w.store p (some (store.get sessionID threadID turnID)) ∧
            (∀ id, w'.entry id = w.entry id) ∧
            w'.created = (p, sessionID, threadID) :: w.created ∧
            w'.removed = w.removed ∧ w'.lock = w.lock := by
        rw [← hstep]
        exact ⟨rfl, fun _ => rfl, rfl, rfl, rfl⟩
      have hcovered : ∀ q, w'.covered q = Function.update w.covered p false q := by
        rw [← hstep]
        exact fun _ => rfl
      have hclean : ∀ q, w'.clean q = Function.update w.clean p false q := by
        rw [← hstep]
        exact fun _ => rfl
      have hmore : ∀ entry ∈ w.created, entry ∈ w'.created :=
        fun _ hmem => hcreated ▸ List.mem_cons_of_mem _ hmem
      have hless : ∀ q id, w'.Unsaved q id → id = sessionID ∨ w.Unsaved q id := by
        intro q id hunsaved
        rcases (unsaved_iff hstores).mp hunsaved with ⟨rfl, hin, hnot⟩ | ⟨-, hunsaved⟩
        · rw [hdirty, mem_add] at hin
          exact hin.imp_right fun hin => (unsaved_self hstore).mpr ⟨hin, hphase ▸ hnot⟩
        · exact .inr hunsaved
      refine ⟨?_, ?_, ?_, ?_, ?_⟩
      · intro q other hmem
        rcases (mem_store hstores).mp hmem with ⟨rfl, rfl⟩ | ⟨hq, hmem⟩
        · refine ⟨?_, ?_, ?_, ?_, ?_, ?_⟩
          · intro id hid
            by_cases hne : id = sessionID
            · exact ⟨made, hne ▸ hmade, by rw [hcreated, hne, hthread]; exact List.mem_cons_self⟩
            · rw [hdirty, mem_add] at hid
              obtain ⟨metadata, hget, hmem⟩ := hown.dirty id (hid.resolve_left hne)
              exact ⟨metadata, (hothers id hne).trans hget, hmore _ hmem⟩
          · intro id hid
            rw [hdeleted, hunconfirmed] at hid
            obtain ⟨hget, hgone⟩ := hown.pending id hid
            have hne : id ≠ sessionID := fun heq => hnever q (heq ▸ hgone)
            exact ⟨(hothers id hne).trans hget, hremoved ▸ hgone⟩
          · intro changes hrunning
            rw [hphase] at hrunning
            have htaken := hown.taken changes hrunning
            refine ⟨fun id metadata hmem => ?_, hdeleted ▸ htaken.deleted, fun hcov => ?_⟩
            · obtain ⟨hin, hnot, hkept⟩ := htaken.created id metadata hmem
              refine ⟨hmore _ hin, hnot, ?_⟩
              rcases hkept with ⟨hdirt, hget⟩ | hgone
              · have hne : id ≠ sessionID := by
                  rintro rfl
                  rw [hknown] at hget
                  cases hget
                exact .inl ⟨hdirty ▸ mem_add.mpr (.inr hdirt), (hothers id hne).trans hget⟩
              · exact .inr (hdeleted ▸ hgone)
            · rw [hcovered, Function.update_self] at hcov
              cases hcov
          · rw [hphase]
            exact fun changes threads heq id =>
              (hown.threads changes threads heq id).trans (hentry id).symm
          · rw [hphase, hlock]
            exact hown.lock
          · intro hcl
            rw [hclean, Function.update_self] at hcl
            cases hcl
        · exact (h.own q other hmem).frame hmore (fun _ hin => hremoved ▸ hin)
            (by rw [hcovered, Function.update_of_ne hq]) (by rw [hclean, Function.update_of_ne hq])
            (fun _ => hentry) fun hheld => hlock ▸ hheld
      · intro id thread hget
        exact (h.sound id thread (hentry id ▸ hget)).imp_right fun ⟨q, hq⟩ => ⟨q, hmore _ hq⟩
      · intro q id hmem
        rw [hremoved] at hmem
        have hne : id ≠ sessionID := fun heq => hnever q (heq ▸ hmem)
        rw [hentry]
        rcases h.removed q id hmem with ⟨hgone, hnone⟩ | ⟨r, hr⟩
        · exact .inl ⟨hgone, fun r hr => hnone r ((hless r id hr).resolve_left hne)⟩
        · refine .inr ⟨r, (owes_iff hstores).mpr ?_⟩
          by_cases hrp : r = p
          · subst hrp
            rw [owes_self hstore, CodexSessionStore.Owes] at hr
            exact .inl ⟨rfl, by rw [CodexSessionStore.Owes, hdeleted, hunconfirmed, hphase]; exact hr⟩
          · exact .inr ⟨hrp, hr⟩
      · intro q id thread hmem hnot
        rw [hremoved] at hnot
        rw [hcreated, List.mem_cons] at hmem
        simp only [hentry]
        have hunsaved : ∀ r id, w.Unsaved r id → w'.Unsaved r id := by
          intro r id hr
          rw [unsaved_iff hstores]
          by_cases hrp : r = p
          · subst hrp
            obtain ⟨hin, hwritten⟩ := (unsaved_self hstore).mp hr
            exact .inl ⟨rfl, hdirty ▸ mem_add.mpr (.inr hin), hphase ▸ hwritten⟩
          · exact .inr ⟨hrp, hr⟩
        rcases hmem with heq | hmem
        · obtain ⟨rfl, rfl⟩ : id = sessionID ∧ thread = threadID := by cases heq; exact ⟨rfl, rfl⟩
          refine .inr ⟨p, (unsaved_iff hstores).mpr (.inl ⟨rfl, hdirty ▸ mem_add.mpr (.inl rfl), ?_⟩)⟩
          intro hin
          rw [hphase] at hin
          obtain ⟨changes, metadata, hrunning, hin⟩ := written_created hin
          exact hnot p (hown.taken_created hrunning hin hknown)
        · rcases h.created q id thread hmem hnot with ⟨r, t, hr, ht⟩ | ⟨r, hr⟩
          · exact .inl ⟨r, t, hmore _ hr, ht⟩
          · exact .inr ⟨r, hunsaved r id hr⟩
      · intro id hnew hkept
        rw [hentry]
        exact h.untouched id (fun q t hq => hnew q t (hmore _ hq)) (hremoved ▸ hkept)

theorem mem_delete_pending {store : CodexSessionStore} {sessionID id : String} :
    (id ∈ (store.delete sessionID).deleted ∨ id ∈ (store.delete sessionID).unconfirmed) ↔
      id = sessionID ∨ id ∈ store.deleted ∨ id ∈ store.unconfirmed := by
  simp only [CodexSessionStore.delete]
  by_cases hknown : (store.sessions.get sessionID).isSome
  · simp [hknown, or_assoc]
  · by_cases hdeleted : sessionID ∈ store.deleted
    · simp only [hknown, hdeleted, decide_true, Bool.or_true, if_true]
      refine ⟨.inr, fun h => h.elim (fun heq => .inl (heq ▸ hdeleted)) fun h => h⟩
    · simp only [hknown, hdeleted, decide_false, Bool.or_self, Bool.false_eq_true, if_false,
        mem_add]
      tauto

theorem mem_delete_deleted {store : CodexSessionStore} {sessionID id : String}
    (h : id ∈ store.deleted ∨ (id = sessionID ∧ (store.sessions.get sessionID).isSome)) :
    id ∈ (store.delete sessionID).deleted := by
  simp only [CodexSessionStore.delete]
  split_ifs with hknown
  · rcases h with hid | ⟨rfl, -⟩ <;> simp [*]
  · exact h.resolve_right fun hid => hknown hid.2

theorem Kept.delete {sessionID : String} (h : Kept file w)
    (hstep : w.step (.delete p sessionID) = some w') : Kept file w' := by
  simp only [step, Option.map_eq_some_iff] at hstep
  obtain ⟨store, hstore, hstep⟩ := hstep
  have hown := h.own p store hstore
  obtain ⟨hstores, hentry, hcreated, hremoved, hlock⟩ :
      w'.store = Function.update w.store p (some (store.delete sessionID)) ∧
        (∀ id, w'.entry id = w.entry id) ∧ w'.created = w.created ∧
        w'.removed = (p, sessionID) :: w.removed ∧ w'.lock = w.lock := by
    rw [← hstep]
    exact ⟨rfl, fun _ => rfl, rfl, rfl, rfl⟩
  have hcovered : ∀ q, w'.covered q = Function.update w.covered p false q := by
    rw [← hstep]
    exact fun _ => rfl
  have hclean : ∀ q, w'.clean q = Function.update w.clean p false q := by
    rw [← hstep]
    exact fun _ => rfl
  have hmore : ∀ entry ∈ w.removed, entry ∈ w'.removed :=
    fun _ hmem => hremoved ▸ List.mem_cons_of_mem _ hmem
  have hless : ∀ q id, w'.Unsaved q id → w.Unsaved q id := by
    intro q id hunsaved
    rcases (unsaved_iff hstores).mp hunsaved with ⟨rfl, hin, hnot⟩ | ⟨-, hunsaved⟩
    · exact (unsaved_self hstore).mpr ⟨(mem_remove.mp hin).1, hnot⟩
    · exact hunsaved
  have howes : ∀ q id, w.Owes q id → w'.Owes q id := by
    intro q id howes
    by_cases hq : q = p
    · subst hq
      obtain ⟨hin, hnot⟩ := (owes_self hstore).mp howes
      exact (owes_iff hstores).mpr (.inl ⟨rfl, mem_delete_pending.mpr (.inr hin), hnot⟩)
    · exact (owes_iff hstores).mpr (.inr ⟨hq, howes⟩)
  refine ⟨?_, ?_, ?_, ?_, ?_⟩
  · intro q other hmem
    rcases (mem_store hstores).mp hmem with ⟨rfl, rfl⟩ | ⟨hq, hmem⟩
    · refine ⟨?_, ?_, ?_, ?_, ?_, ?_⟩
      · intro id hid
        obtain ⟨hin, hne⟩ := mem_remove.mp hid
        obtain ⟨metadata, hget, hmem⟩ := hown.dirty id hin
        refine ⟨metadata, ?_, hcreated ▸ hmem⟩
        rw [CodexSessionStore.delete, Table.get_delete, if_neg hne]
        exact hget
      · intro id hid
        rw [CodexSessionStore.delete, Table.get_delete]
        rcases mem_delete_pending.mp hid with rfl | hid
        · exact ⟨if_pos rfl, hremoved ▸ List.mem_cons_self⟩
        · exact ⟨by rw [(hown.pending id hid).1, ite_self], hmore _ (hown.pending id hid).2⟩
      · intro changes hrunning
        have htaken := hown.taken changes hrunning
        refine ⟨fun id metadata hmem => ?_, fun id hid => mem_delete_deleted (.inl (htaken.deleted id hid)),
          fun hcov => ?_⟩
        · obtain ⟨hmade, hnot, hkept⟩ := htaken.created id metadata hmem
          refine ⟨hcreated ▸ hmade, hnot, ?_⟩
          rcases hkept with ⟨hdirty, hget⟩ | hdeleted
          · by_cases hid : id = sessionID
            · exact .inr (mem_delete_deleted (.inr ⟨hid, by rw [← hid, hget]; rfl⟩))
            · refine .inl ⟨mem_remove.mpr ⟨hdirty, hid⟩, ?_⟩
              rw [CodexSessionStore.delete, Table.get_delete, if_neg hid]
              exact hget
          · exact .inr (mem_delete_deleted (.inl hdeleted))
        · rw [hcovered, Function.update_self] at hcov
          cases hcov
      · exact fun changes threads hphase id => (hown.threads changes threads hphase id).trans (hentry id).symm
      · exact fun hlocks => hlock ▸ hown.lock hlocks
      · intro hcl
        rw [hclean, Function.update_self] at hcl
        cases hcl
    · exact (h.own q other hmem).frame (fun _ hin => hcreated ▸ hin) hmore
        (by rw [hcovered, Function.update_of_ne hq]) (by rw [hclean, Function.update_of_ne hq])
        (fun _ => hentry) fun hheld => hlock ▸ hheld
  · intro id thread hget
    rw [hcreated]
    exact h.sound id thread (hentry id ▸ hget)
  · intro q id hmem
    rw [hentry]
    -- a deletion that this process has to write anew, or one from before
    by_cases hbefore : ∃ r, (r, id) ∈ w.removed
    · obtain ⟨r, hr⟩ := hbefore
      rcases h.removed r id hr with ⟨hgone, hnone⟩ | ⟨r', hr'⟩
      · exact .inl ⟨hgone, fun q hq => hnone q (hless q id hq)⟩
      · exact .inr ⟨r', howes r' id hr'⟩
    · rw [hremoved, List.mem_cons] at hmem
      obtain ⟨rfl, rfl⟩ := Prod.mk.inj (hmem.resolve_right fun hmem => hbefore ⟨q, hmem⟩)
      refine .inr ⟨q, (owes_iff hstores).mpr (.inl ⟨rfl, mem_delete_pending.mpr (.inl rfl), fun hin => ?_⟩)⟩
      obtain ⟨changes, hrunning, hin⟩ := written_deleted hin
      exact hbefore ⟨q, (hown.pending id (.inl ((hown.taken changes hrunning).deleted id hin))).2⟩
  · intro q id thread hmem hnot
    have hne : id ≠ sessionID := by
      rintro rfl
      exact hnot p (hremoved ▸ List.mem_cons_self)
    simp only [hentry, hcreated]
    rcases h.created q id thread (hcreated ▸ hmem) (fun r hr => hnot r (hmore _ hr)) with hin | ⟨r, hr⟩
    · exact .inl hin
    · refine .inr ⟨r, (unsaved_iff hstores).mpr ?_⟩
      by_cases hrp : r = p
      · subst hrp
        obtain ⟨hin, hwritten⟩ := (unsaved_self hstore).mp hr
        exact .inl ⟨rfl, mem_remove.mpr ⟨hin, hne⟩, hwritten⟩
      · exact .inr ⟨hrp, hr⟩
  · intro id hnew hkept
    rw [hentry]
    exact h.untouched id (hcreated ▸ hnew) fun r hr => hkept r (hmore _ hr)

/-! ## A save that ends -/

theorem Kept.settle (h : Kept file w) (hstep : w.step (.settle p) = some w') : Kept file w' := by
  simp only [step, Option.bind_eq_some_iff] at hstep
  obtain ⟨store, hstore, hstep⟩ := hstep
  cases hphase : store.phase <;> rw [hphase] at hstep <;> try cases hstep
  rename_i changes saved
  have hown := h.own p store hstore
  have htaken := hown.taken changes (by rw [hphase]; rfl)
  cases saved with
  | false =>
      cases hstep
      exact h.wait hstore rfl rfl rfl rfl rfl rfl (fun _ _ hlock => hlock) rfl rfl rfl rfl
        (by rw [hphase]; rfl) (fun _ hrunning => by cases hrunning)
        (fun _ _ heq => Phase.noConfusion heq) False.elim
  | true =>
      -- what is dirty and was taken is as it was taken
      have hdirty : ∀ id, id ∈ (store.settle changes).dirty ↔
          id ∈ store.dirty ∧ id ∉ changes.created.map Prod.fst := by
        intro id
        rw [mem_settle_dirty]
        refine and_congr_right fun hid => ⟨fun hnot hin => ?_, fun hnot metadata hin => ?_⟩
        · obtain ⟨⟨_, metadata⟩, hmem, rfl⟩ := List.mem_map.mp hin
          obtain ⟨-, -, ⟨-, hget⟩ | hdeleted⟩ := htaken.created _ metadata hmem
          · exact hnot metadata hmem (by rw [hget]; rfl)
          · obtain ⟨_, hget, -⟩ := hown.dirty _ hid
            rw [(hown.pending _ (.inl hdeleted)).1] at hget
            cases hget
        · exact (hnot (List.mem_map.mpr ⟨(id, metadata), hin, rfl⟩)).elim
      have hdeleted : ∀ id, id ∈ (store.settle changes).deleted ↔
          id ∈ store.deleted ∧ id ∉ changes.deleted := by
        intro id
        rw [mem_settle_deleted]
        refine and_congr_right fun hid => not_congr ⟨And.left, fun hin => ⟨hin, ?_⟩⟩
        exact (hown.pending id (.inl hid)).1
      cases hstep
      refine h.quiet rfl rfl rfl rfl (fun _ _ => rfl) (fun q hq => Function.update_of_ne hq _ _)
        (fun _ _ hlock => hlock) ?_ (fun id => ?_) fun id hid => ?_
      · refine ⟨fun id hid => hown.dirty id ((hdirty id).mp hid).1, fun id hid => ?_,
          fun _ hrunning => (by cases hrunning), fun _ _ heq => Phase.noConfusion heq, False.elim,
          fun hclean => ?_⟩
        · exact hown.pending id (hid.imp_left fun hid => ((hdeleted id).mp hid).1)
        · obtain ⟨hunconfirmed, hcreated, hremoved⟩ :=
            htaken.covered ((Function.update_self (β := fun _ => Bool) ..).symm.trans hclean)
          refine ⟨List.eq_nil_iff_forall_not_mem.mpr fun id hid => ?_,
            List.eq_nil_iff_forall_not_mem.mpr fun id hid => ?_, hunconfirmed⟩
          · obtain ⟨hin, hnot⟩ := (hdirty id).mp hid
            exact hnot (hcreated id hin)
          · obtain ⟨hin, hnot⟩ := (hdeleted id).mp hid
            exact hnot (hremoved id hin)
      · rw [unsaved_self hstore, CodexSessionStore.Unsaved, CodexSessionStore.Unsaved, hphase]
        refine (and_congr_left fun _ => hdirty id).trans ?_
        simp [Phase.written]
      · obtain ⟨hin, hnot⟩ := (owes_self hstore).mp hid
        rw [hphase] at hnot
        exact .inl ⟨hin.imp_left fun hin => (hdeleted id).mpr ⟨hin, hnot⟩, List.not_mem_nil⟩

/-- The file as a save replaces it, or leaves it where it says so already. -/
theorem Kept.written {store : CodexSessionStore} {changes : Changes} {threads : Table String}
    (h : Kept file w) (hstore : w.store p = some store)
    (hphase : store.phase = .writing changes threads)
    (hcareful : ∀ id ∈ changes.deleted, ∀ q, q ≠ p → ¬w.Unsaved q id)
    (hstores : w'.store =
      Function.update w.store p (some { store with phase := .releasing changes true }))
    (hentry : ∀ id, w'.entry id = (changes.apply threads).1.get id)
    (hcreated : w'.created = w.created) (hremoved : w'.removed = w.removed)
    (hcovered : w'.covered = w.covered) (hclean : w'.clean = w.clean) (hlock : w'.lock = w.lock) :
    Kept file w' := by
  have hown := h.own p store hstore
  have htaken := hown.taken changes (by rw [hphase]; rfl)
  have hheld := hown.lock (by rw [hphase]; trivial)
  have hkeep : ∀ id, id ∉ changes.created.map Prod.fst →
      w'.entry id = if id ∈ changes.deleted then none else w.entry id := by
    intro id hid
    rw [hentry, get_apply_of_not_mem hid, hown.threads changes threads hphase id]
  have hmade : ∀ id, id ∈ changes.created.map Prod.fst →
      ∃ metadata, (id, metadata) ∈ changes.created ∧ w'.entry id = some metadata.threadID := by
    intro id hid
    obtain ⟨metadata, hmem, hget⟩ := get_apply_of_mem threads hid
    exact ⟨metadata, hmem, (hentry id).trans hget⟩
  -- what this process has taken, it has no more to write
  have hunsaved : ∀ q id, w'.Unsaved q id ↔
      w.Unsaved q id ∧ ¬(q = p ∧ id ∈ changes.created.map Prod.fst) := by
    intro q id
    rw [unsaved_iff hstores]
    by_cases hq : q = p
    · subst hq
      rw [unsaved_self hstore, CodexSessionStore.Unsaved, CodexSessionStore.Unsaved, hphase]
      simp [Phase.written]
    · simp [hq]
  have howes : ∀ q id, w'.Owes q id ↔ w.Owes q id ∧ ¬(q = p ∧ id ∈ changes.deleted) := by
    intro q id
    rw [owes_iff hstores]
    by_cases hq : q = p
    · subst hq
      rw [owes_self hstore, CodexSessionStore.Owes, CodexSessionStore.Owes, hphase]
      simp [Phase.written]
    · simp [hq]
  refine ⟨?_, ?_, ?_, ?_, ?_⟩
  · intro q other hmem
    rcases (mem_store hstores).mp hmem with ⟨rfl, rfl⟩ | ⟨hq, hmem⟩
    · exact hown.of_pending rfl rfl rfl rfl hcreated hremoved (by rw [hcovered]) (by rw [hclean])
        (fun _ hrunning => by rw [hphase]; exact hrunning) (fun _ _ heq => Phase.noConfusion heq)
        fun _ => hlock ▸ hheld
    · refine (h.own q other hmem).frame (fun _ hin => hcreated ▸ hin) (fun _ hin => hremoved ▸ hin)
        (by rw [hcovered]) (by rw [hclean]) (fun hlocks => ?_) fun hheld => hlock ▸ hheld
      -- the lock is this process's, so no other one holds what it read
      exact (hq (Option.some.inj (((h.own q other hmem).lock hlocks).symm.trans hheld))).elim
  · intro id thread hget
    rw [hcreated]
    by_cases hid : id ∈ changes.created.map Prod.fst
    · obtain ⟨metadata, hmem, hget'⟩ := hmade id hid
      obtain rfl := Option.some.inj (hget'.symm.trans hget)
      exact .inr ⟨p, (htaken.created id metadata hmem).1⟩
    · rw [hkeep id hid] at hget
      split_ifs at hget
      exact h.sound id thread hget
  · intro q id hmem
    rw [hremoved] at hmem
    by_cases hid : id ∈ changes.created.map Prod.fst
    · -- written although it was deleted: whoever deleted it has yet to remove it
      obtain ⟨metadata, hin, -⟩ := hmade id hid
      obtain ⟨-, hnot, ⟨hdirty, hget⟩ | hdeleted⟩ := htaken.created id metadata hin
      · have hbefore : w.Unsaved p id := by
          rw [unsaved_self hstore, CodexSessionStore.Unsaved, hphase]
          exact ⟨hdirty, List.not_mem_nil⟩
        rcases h.removed q id hmem with ⟨-, hnone⟩ | ⟨r, hr⟩
        · exact (hnone p hbefore).elim
        · refine .inr ⟨r, (howes r id).mpr ⟨hr, ?_⟩⟩
          exact fun hin => hnot hin.2
      · refine .inr ⟨p, (howes p id).mpr ⟨?_, fun hin => hnot hin.2⟩⟩
        rw [owes_self hstore, CodexSessionStore.Owes, hphase]
        exact ⟨.inl hdeleted, List.not_mem_nil⟩
    · rw [hkeep id hid]
      split_ifs with hdeleted
      · refine .inl ⟨rfl, fun r hr => ?_⟩
        obtain ⟨hr, -⟩ := (hunsaved r id).mp hr
        by_cases hrp : r = p
        · subst hrp
          obtain ⟨_, hget, -⟩ := hown.dirty id ((unsaved_self hstore).mp hr).1
          rw [(hown.pending id (.inl (htaken.deleted id hdeleted))).1] at hget
          cases hget
        · exact hcareful id hdeleted r hrp hr
      · rcases h.removed q id hmem with ⟨hgone, hnone⟩ | ⟨r, hr⟩
        · exact .inl ⟨hgone, fun r hr => hnone r ((hunsaved r id).mp hr).1⟩
        · exact .inr ⟨r, (howes r id).mpr ⟨hr, fun hin => hdeleted hin.2⟩⟩
  · intro q id thread hmem hnot
    rw [hcreated] at hmem ⊢
    rw [hremoved] at hnot
    by_cases hid : id ∈ changes.created.map Prod.fst
    · obtain ⟨metadata, hin, hget⟩ := hmade id hid
      exact .inl ⟨p, metadata.threadID, (htaken.created id metadata hin).1, hget⟩
    · have hnotdeleted : id ∉ changes.deleted := fun hin =>
        hnot p (hown.pending id (.inl (htaken.deleted id hin))).2
      rw [hkeep id hid, if_neg hnotdeleted]
      refine (h.created q id thread hmem hnot).imp_right fun ⟨r, hr⟩ =>
        ⟨r, (hunsaved r id).mpr ⟨hr, fun hin => hid hin.2⟩⟩
  · intro id hnew hkept
    rw [hcreated] at hnew
    rw [hremoved] at hkept
    have hid : id ∉ changes.created.map Prod.fst := fun hid => by
      obtain ⟨metadata, hin, -⟩ := hmade id hid
      exact hnew p _ (htaken.created id metadata hin).1
    rw [hkeep id hid, if_neg fun hin => hkept p (hown.pending id (.inl (htaken.deleted id hin))).2]
    exact h.untouched id hnew hkept

theorem Kept.write {failed : Bool} (h : Kept file w) (hcareful : w.Careful (.write p failed))
    (hstep : w.step (.write p failed) = some w') : Kept file w' := by
  simp only [step, Option.bind_eq_some_iff] at hstep
  obtain ⟨store, hstore, hstep⟩ := hstep
  cases hphase : store.phase <;> rw [hphase] at hstep <;> try cases hstep
  rename_i changes threads
  have hcareful := hcareful store hstore changes threads hphase
  have hown := h.own p store hstore
  dsimp only at hstep
  cases hchanged : (changes.apply threads).2 with
  | false =>
      rw [hchanged] at hstep
      cases hstep
      refine h.written hstore hphase (hcareful (.inr hchanged)) rfl (fun id => ?_) rfl rfl rfl rfl rfl
      rw [apply_unchanged hchanged, hown.threads changes threads hphase id]
      rfl
  | true =>
      rw [hchanged] at hstep
      cases failed with
      | true =>
          cases hstep
          refine h.wait hstore rfl rfl rfl rfl rfl rfl (fun _ _ hlock => hlock) rfl rfl rfl rfl
            (by rw [hphase]; rfl) (fun _ hrunning => by rw [hphase]; exact hrunning)
            (fun _ _ heq => Phase.noConfusion heq) fun _ => hown.lock (by rw [hphase]; trivial)
      | false =>
          cases hstep
          exact h.written hstore hphase (hcareful (.inl rfl)) rfl (fun _ => rfl) rfl rfl rfl rfl rfl

/-! ## A whole run -/

theorem kept_step {step : Step P} (h : Kept file w) (hfresh : w.Fresh step)
    (hcareful : w.Careful step) (hstep : w.step step = some w') : Kept file w' := by
  cases step with
  | start p failed turnID => exact h.start hstep
  | get p sessionID threadID turnID => exact h.get hfresh hstep
  | delete p sessionID => exact h.delete hstep
  | timer p =>
      simp only [World.step, Option.bind_eq_some_iff] at hstep
      obtain ⟨store, hstore, hstep⟩ := hstep
      split_ifs at hstep
      cases hstep
      exact h.save hstore
  | save p =>
      simp only [World.step, Option.map_eq_some_iff] at hstep
      obtain ⟨store, hstore, rfl⟩ := hstep
      exact h.save hstore
  | «begin» p failed folderFailed => exact h.begin hcareful hstep
  | locked p got => exact h.locked hstep
  | reread p failed => exact h.reread hcareful hstep
  | write p failed => exact h.write hcareful hstep
  | released p => exact h.released hstep
  | settle p => exact h.settle hstep

omit [DecidableEq P] in
theorem kept_initial (file : Option (Table String)) : Kept file (initial file : World P) where
  own _ _ hmem := by cases hmem
  sound _ _ hget := .inl hget
  removed _ _ hmem := by cases hmem
  created _ _ _ hmem := by cases hmem
  untouched _ _ _ := rfl

theorem kept_run {steps : List (Step P)} (h : Kept file w) (hfresh : w.Along Fresh steps)
    (hcareful : w.Along Careful steps) (hrun : w.run steps = some w') : Kept file w' := by
  induction steps generalizing w with
  | nil =>
      cases hrun
      exact h
  | cons step rest ih =>
      simp only [run, Option.bind_eq_some_iff] at hrun
      obtain ⟨next, hstep, hrun⟩ := hrun
      exact ih (kept_step h hfresh.1 hcareful.1 hstep) (hfresh.2 next hstep)
        (hcareful.2 next hstep) hrun

/-- Only the writes change the file. -/
theorem step_file {step : Step P} (hstep : w.step step = some w') :
    w'.file = w.file ∨ ∃ p failed, step = .write p failed := by
  cases step with
  | write p failed => exact .inr ⟨p, failed, rfl⟩
  | start p failed turnID =>
      simp only [World.step] at hstep
      split at hstep <;> cases hstep
      exact .inl rfl
  | get p sessionID threadID turnID =>
      simp only [World.step, Option.map_eq_some_iff] at hstep
      obtain ⟨store, -, rfl⟩ := hstep
      split_ifs <;> exact .inl rfl
  | delete p sessionID =>
      simp only [World.step, Option.map_eq_some_iff] at hstep
      obtain ⟨store, -, rfl⟩ := hstep
      exact .inl rfl
  | timer p =>
      simp only [World.step, Option.bind_eq_some_iff] at hstep
      obtain ⟨store, -, hstep⟩ := hstep
      split_ifs at hstep
      cases hstep
      exact .inl rfl
  | save p =>
      simp only [World.step, Option.map_eq_some_iff] at hstep
      obtain ⟨store, -, rfl⟩ := hstep
      exact .inl rfl
  | _ =>
      simp only [World.step, Option.bind_eq_some_iff] at hstep
      obtain ⟨store, -, hstep⟩ := hstep
      split at hstep
      · first
        | (split at hstep <;> cases hstep <;> exact .inl rfl)
        | (split_ifs at hstep <;> cases hstep <;> exact .inl rfl)
        | (cases hstep; exact .inl rfl)
      · cases hstep

theorem write_own {failed : Bool} {id : String} (h : Kept file w)
    (hstep : w.step (.write p failed) = some w') (hne : w'.entry id ≠ w.entry id) :
    (∃ thread, (p, id, thread) ∈ w.created) ∨ (p, id) ∈ w.removed := by
  simp only [step, Option.bind_eq_some_iff] at hstep
  obtain ⟨store, hstore, hstep⟩ := hstep
  cases hphase : store.phase <;> rw [hphase] at hstep <;> try cases hstep
  rename_i changes threads
  have hown := h.own p store hstore
  have htaken := hown.taken changes (by rw [hphase]; rfl)
  have hentry : w'.entry id = w.entry id ∨ w'.entry id = (changes.apply threads).1.get id := by
    dsimp only at hstep
    split_ifs at hstep <;> cases hstep
    · exact .inl rfl
    · exact .inl rfl
    · exact .inr rfl
  have hnew := hentry.resolve_left hne
  by_cases hid : id ∈ changes.created.map Prod.fst
  · obtain ⟨⟨_, metadata⟩, hmem, rfl⟩ := List.mem_map.mp hid
    exact .inl ⟨_, (htaken.created _ metadata hmem).1⟩
  · rw [hnew, get_apply_of_not_mem hid, hown.threads changes threads hphase id] at hne
    by_cases hdeleted : id ∈ changes.deleted
    · exact .inr (hown.pending id (.inl (htaken.deleted id hdeleted))).2
    · rw [if_neg hdeleted] at hne
      exact (hne rfl).elim

omit [DecidableEq P] in
/-- Once every process has completed a save after its last change nothing is pending. -/
theorem Kept.settled (h : Kept file w) (hclean : ∀ p, w.clean p = true) (q : P) (id : String) :
    ¬w.Unsaved q id ∧ ¬w.Owes q id := by
  refine ⟨fun ⟨store, hstore, hin, _⟩ => ?_, fun ⟨store, hstore, hin, _⟩ => ?_⟩
  · rw [((h.own q store hstore).clean (hclean q)).1] at hin
    cases hin
  · obtain ⟨-, hdeleted, hunconfirmed⟩ := (h.own q store hstore).clean (hclean q)
    rw [hdeleted, hunconfirmed] at hin
    rcases hin with hin | hin <;> cases hin

end Steps

theorem saves_keep {P : Type*} [DecidableEq P] (file : Option (Table String))
    (steps : List (Step P)) (w : World P) (hrun : (initial file).run steps = some w)
    (hfresh : (initial file : World P).Along Fresh steps)
    (hcareful : (initial file : World P).Along Careful steps) :
    (∀ step w', w.step step = some w' → ∀ id, w'.entry id ≠ w.entry id →
      ∃ p failed, step = .write p failed ∧
        ((∃ thread, (p, id, thread) ∈ w.created) ∨ (p, id) ∈ w.removed)) ∧
    ((∀ p, w.clean p = true) → ∀ id,
      ((∃ p, (p, id) ∈ w.removed) → w.entry id = none) ∧
      ((∀ p, (p, id) ∉ w.removed) →
        ((∃ p thread, (p, id, thread) ∈ w.created) →
          ∃ p thread, (p, id, thread) ∈ w.created ∧ w.entry id = some thread) ∧
        ((∀ p thread, (p, id, thread) ∉ w.created) →
          w.entry id = (file.getD .empty).get id))) := by
  have h := kept_run (kept_initial file) hfresh hcareful hrun
  refine ⟨fun step w' hstep id hne => ?_, fun hclean id => ⟨?_, fun hkept => ⟨?_, ?_⟩⟩⟩
  · rcases step_file hstep with hfile | ⟨p, failed, rfl⟩
    · rw [entry, hfile] at hne
      exact (hne rfl).elim
    · exact ⟨p, failed, rfl, write_own h hstep hne⟩
  · rintro ⟨p, hp⟩
    rcases h.removed p id hp with ⟨hgone, -⟩ | ⟨q, hq⟩
    · exact hgone
    · exact ((h.settled hclean q id).2 hq).elim
  · rintro ⟨p, thread, hp⟩
    rcases h.created p id thread hp hkept with hin | ⟨q, hq⟩
    · exact hin
    · exact ((h.settled hclean q id).1 hq).elim
  · exact fun hnew => h.untouched id hnew hkept

/-- A process starts, a session begins, and its save completes. -/
def firstSave (p : P) (id thread : String) (unreadable : Bool) : List (Step P) :=
  [.start p false fun _ => "turn", .get p id thread "turn", .timer p, .begin p false false,
    .locked p true, .reread p unreadable, .write p false, .released p, .settle p]

theorem saves_keep_first : ∃ w, (initial none : World Unit).run (firstSave () "s" "t" false) = some w ∧
    w.entry "s" = some "t" := by
  obtain ⟨w, hrun, hclean, hcreated, hremoved⟩ :
      ∃ w, (initial none : World Unit).run (firstSave () "s" "t" false) = some w ∧
        (∀ p, w.clean p = true) ∧ w.created = [((), "s", "t")] ∧ w.removed = [] :=
    ⟨_, rfl, fun _ => rfl, rfl, rfl⟩
  have hfresh : (initial none : World Unit).Along Fresh (firstSave () "s" "t" false) := by
    refine ⟨trivial, ?_⟩
    rintro _ ⟨rfl⟩
    refine ⟨fun _ _ _ _ => List.not_mem_nil, ?_⟩
    rintro _ ⟨rfl⟩
    iterate 7
      refine ⟨trivial, ?_⟩
      rintro _ ⟨rfl⟩
    trivial
  have hcareful : (initial none : World Unit).Along Careful (firstSave () "s" "t" false) := by
    iterate 3
      refine ⟨trivial, ?_⟩
      rintro _ ⟨rfl⟩
    refine ⟨fun _ _ _ _ _ => ⟨rfl, fun _ hq => (hq rfl).elim⟩, ?_⟩
    rintro _ ⟨rfl⟩
    refine ⟨trivial, ?_⟩
    rintro _ ⟨rfl⟩
    refine ⟨fun _ => rfl, ?_⟩
    rintro _ ⟨rfl⟩
    refine ⟨fun _ _ _ _ _ _ _ _ _ hq => (hq rfl).elim, ?_⟩
    rintro _ ⟨rfl⟩
    iterate 2
      refine ⟨trivial, ?_⟩
      rintro _ ⟨rfl⟩
    trivial
  refine ⟨w, hrun, ?_⟩
  obtain ⟨p, thread, hmem, hentry⟩ :=
    ((((saves_keep none _ w hrun hfresh hcareful).2 hclean "s").2 (by simp [hremoved])).1
      ⟨(), "t", by simp [hcreated]⟩)
  rw [hcreated, List.mem_singleton] at hmem
  cases hmem
  exact hentry

def saved : Table String := Table.empty.set "old" "t0"

/-- Another process deletes the session, and saves, before the first has saved it. -/
def deletedUnsaved : List (Step Bool) :=
  [.start true false fun _ => "turn", .start false false fun _ => "turn",
    .get true "s" "t" "turn", .delete false "s", .timer false, .begin false false false,
    .timer true, .begin true false false, .locked true true, .reread true false,
    .write true false, .released true, .settle true]

/-- A read that fails under the lock is taken for an empty file; and a deletion that no save
has to write is dropped, though another process is yet to write the session. -/
theorem entry_lost_and_deletion_undone :
    (∃ w, (initial (some saved)).run (firstSave true "s" "t" true) = some w ∧
      (∀ p, w.clean p = true) ∧ w.removed = [] ∧ saved.get "old" = some "t0" ∧
        w.entry "old" = none) ∧
    (∃ w, (initial (some saved)).run deletedUnsaved = some w ∧
      (∀ p, w.clean p = true) ∧ (false, "s") ∈ w.removed ∧ w.entry "s" = some "t") := by
  refine ⟨⟨_, rfl, by decide, rfl, rfl, rfl⟩, ⟨_, rfl, by decide, ?_, rfl⟩⟩
  decide

end World

end CodexSessions
