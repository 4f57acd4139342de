import OpenaiAuth.CodexSessions.Store

/-! # The parts of a save

What the confirmation keeps, what the threads hold after the changes are applied, and what
a save that completed leaves pending.
-/

namespace CodexSessions

open Js

variable {store : CodexSessionStore} {changes : Changes} {threads : Table String} {id : String}

theorem mem_changes_created {metadata : CodexSessionMetadata} :
    (id, metadata) ∈ store.changes.created ↔
      id ∈ store.dirty ∧ store.sessions.get id = some metadata := by
  simp [CodexSessionStore.changes]

theorem mem_confirmed {file : Option (Table String)} {failed : Bool} :
    id ∈ (store.confirmDeletions file failed).deleted ↔
      id ∈ store.deleted ∨ (id ∈ store.unconfirmed ∧
        (((readCodexSessionThreads file failed).getD .empty).get id).isSome ∧
          (store.sessions.get id).isNone) := by
  have hfold : ∀ (ids deleted : List String),
      id ∈ ids.foldl (fun deleted id =>
          if (((readCodexSessionThreads file failed).getD .empty).get id).isSome &&
            (store.sessions.get id).isNone then add id deleted else deleted) deleted ↔
        id ∈ deleted ∨ (id ∈ ids ∧
          (((readCodexSessionThreads file failed).getD .empty).get id).isSome ∧
            (store.sessions.get id).isNone) := by
    intro ids
    induction ids with
    | nil => simp
    | cons x rest ih =>
        intro deleted
        rw [List.foldl_cons, ih]
        by_cases hx : id = x
        · subst hx
          split_ifs with hfound
          · rw [Bool.and_eq_true] at hfound
            simp [hfound]
          · rw [Bool.and_eq_true] at hfound
            simp only [List.mem_cons, true_or, true_and]
            tauto
        · split_ifs <;> simp [hx]
  exact hfold store.unconfirmed store.deleted

/-- The fold of the deletions, and that of the creations. -/
def deleteAll (ids : List String) (result : Table String × Bool) : Table String × Bool :=
  ids.foldl (fun result id =>
    if (result.1.get id).isSome then (result.1.delete id, true) else result) result

def createAll (entries : List (String × CodexSessionMetadata)) (result : Table String × Bool) :
    Table String × Bool :=
  entries.foldl (fun result entry =>
    if result.1.get entry.1 = some entry.2.threadID then result
    else (result.1.set entry.1 entry.2.threadID, true)) result

theorem apply_eq : changes.apply threads =
    createAll changes.created (deleteAll changes.deleted (threads, false)) := rfl

theorem get_deleteAll (ids : List String) (result : Table String × Bool) :
    (deleteAll ids result).1.get id = if id ∈ ids then none else result.1.get id := by
  induction ids generalizing result with
  | nil => rfl
  | cons x rest ih =>
      have hstep : (if (result.1.get x).isSome then (result.1.delete x, true) else result).1.get id =
          if id = x then none else result.1.get id := by
        split_ifs with hfound hx hx
        · rw [Table.get_delete, if_pos hx]
        · rw [Table.get_delete, if_neg hx]
        · rw [hx]
          simpa using hfound
        · rfl
      rw [deleteAll, List.foldl_cons]
      refine (ih _).trans ?_
      rw [hstep]
      by_cases hx : id = x <;> by_cases hrest : id ∈ rest <;> simp [hx, hrest]

theorem get_createAll_of_not_mem {entries : List (String × CodexSessionMetadata)}
    (h : id ∉ entries.map Prod.fst) (result : Table String × Bool) :
    (createAll entries result).1.get id = result.1.get id := by
  induction entries generalizing result with
  | nil => rfl
  | cons entry rest ih =>
      rw [List.map_cons, List.mem_cons, not_or] at h
      rw [createAll, List.foldl_cons]
      refine (ih h.2 _).trans ?_
      split_ifs
      · rfl
      · exact Table.get_set_of_ne h.1 ..

theorem get_createAll_of_mem {entries : List (String × CodexSessionMetadata)}
    (h : id ∈ entries.map Prod.fst) (result : Table String × Bool) :
    ∃ metadata, (id, metadata) ∈ entries ∧
      (createAll entries result).1.get id = some metadata.threadID := by
  induction entries generalizing result with
  | nil => cases h
  | cons entry rest ih =>
      rw [createAll, List.foldl_cons]
      by_cases hrest : id ∈ rest.map Prod.fst
      · obtain ⟨metadata, hmem, hget⟩ := ih hrest _
        exact ⟨metadata, List.mem_cons_of_mem _ hmem, hget⟩
      · rw [List.map_cons, List.mem_cons] at h
        obtain rfl := h.resolve_right hrest
        refine ⟨entry.2, List.mem_cons_self, (get_createAll_of_not_mem hrest _).trans ?_⟩
        split_ifs with hsame
        · exact hsame
        · exact Table.get_set_self ..

/-- Where nothing was news the threads are as they were. -/
theorem apply_unchanged (h : (changes.apply threads).2 = false) : (changes.apply threads).1 = threads := by
  have hdeleted : ∀ (ids : List String) (result : Table String × Bool),
      (deleteAll ids result).2 = false → result.2 = false ∧ (deleteAll ids result).1 = result.1 := by
    intro ids
    induction ids with
    | nil => exact fun _ h => ⟨h, rfl⟩
    | cons x rest ih =>
        intro result h
        rw [deleteAll, List.foldl_cons] at h ⊢
        obtain ⟨hflag, hsame⟩ := ih _ h
        by_cases hfound : (result.1.get x).isSome
        · rw [if_pos hfound] at hflag
          exact Bool.noConfusion hflag
        · rw [if_neg hfound] at hflag hsame ⊢
          exact ⟨hflag, hsame⟩
  have hcreated : ∀ (entries : List (String × CodexSessionMetadata)) (result : Table String × Bool),
      (createAll entries result).2 = false →
        result.2 = false ∧ (createAll entries result).1 = result.1 := by
    intro entries
    induction entries with
    | nil => exact fun _ h => ⟨h, rfl⟩
    | cons entry rest ih =>
        intro result h
        rw [createAll, List.foldl_cons] at h ⊢
        obtain ⟨hflag, hsame⟩ := ih _ h
        by_cases hfound : result.1.get entry.1 = some entry.2.threadID
        · rw [if_pos hfound] at hflag hsame ⊢
          exact ⟨hflag, hsame⟩
        · rw [if_neg hfound] at hflag
          exact Bool.noConfusion hflag
  rw [apply_eq] at h ⊢
  obtain ⟨hflag, hsame⟩ := hcreated _ _ h
  rw [hsame]
  exact (hdeleted _ _ hflag).2

variable (threads) in
theorem get_apply_of_mem (h : id ∈ changes.created.map Prod.fst) :
    ∃ metadata, (id, metadata) ∈ changes.created ∧
      (changes.apply threads).1.get id = some metadata.threadID :=
  get_createAll_of_mem h _

theorem get_apply_of_not_mem (h : id ∉ changes.created.map Prod.fst) :
    (changes.apply threads).1.get id = if id ∈ changes.deleted then none else threads.get id := by
  rw [apply_eq, get_createAll_of_not_mem h, get_deleteAll]

theorem mem_settle_dirty : id ∈ (store.settle changes).dirty ↔
    id ∈ store.dirty ∧ ∀ metadata, (id, metadata) ∈ changes.created →
      (store.sessions.get id).map (·.ref) ≠ some metadata.ref := by
  have hfold : ∀ (entries : List (String × CodexSessionMetadata)) (dirty : List String),
      id ∈ entries.foldl (fun dirty entry =>
        if (store.sessions.get entry.1).map (·.ref) = some entry.2.ref then remove entry.1 dirty
        else dirty) dirty ↔
        id ∈ dirty ∧ ∀ metadata, (id, metadata) ∈ entries →
          (store.sessions.get id).map (·.ref) ≠ some metadata.ref := by
    intro entries
    induction entries with
    | nil => simp
    | cons entry rest ih =>
        intro dirty
        obtain ⟨x, taken⟩ := entry
        rw [List.foldl_cons, ih]
        dsimp only
        by_cases hx : id = x
        · subst hx
          split_ifs with hsame
          · simp [hsame]
          · refine and_congr_right fun _ => ⟨fun h metadata hmem => ?_, fun h metadata hmem =>
              h metadata (List.mem_cons_of_mem _ hmem)⟩
            rcases List.mem_cons.mp hmem with heq | hrest
            · cases heq
              exact hsame
            · exact h metadata hrest
        · split_ifs <;> simp [hx]
  exact hfold changes.created store.dirty

theorem mem_settle_deleted : id ∈ (store.settle changes).deleted ↔
    id ∈ store.deleted ∧ ¬(id ∈ changes.deleted ∧ store.sessions.get id = none) := by
  have hfold : ∀ (ids deleted : List String),
      id ∈ ids.foldl (fun deleted id =>
        if (store.sessions.get id).isNone then remove id deleted else deleted) deleted ↔
        id ∈ deleted ∧ ¬(id ∈ ids ∧ store.sessions.get id = none) := by
    intro ids
    induction ids with
    | nil => simp
    | cons x rest ih =>
        intro deleted
        rw [List.foldl_cons, ih]
        by_cases hx : id = x
        · subst hx
          cases store.sessions.get id <;> simp
        · split_ifs <;> simp [hx]
  exact hfold _ _

theorem load_empty (file : Option (Table String)) (failed : Bool) (turnID : String → String) :
    (CodexSessionStore.load file failed turnID).dirty = [] ∧
      (CodexSessionStore.load file failed turnID).deleted = [] ∧
      (CodexSessionStore.load file failed turnID).unconfirmed = [] ∧
      (CodexSessionStore.load file failed turnID).phase = .idle := by
  unfold CodexSessionStore.load
  exact List.foldlRecOn
    (motive := fun store : CodexSessionStore =>
      store.dirty = [] ∧ store.deleted = [] ∧ store.unconfirmed = [] ∧ store.phase = .idle)
    _ _ ⟨rfl, rfl, rfl, rfl⟩ fun _ h _ _ => h

end CodexSessions
