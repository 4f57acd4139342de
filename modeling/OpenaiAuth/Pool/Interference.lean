import OpenaiAuth.Pool.World

/-! # What one call does

How the log is read, and everything a call can do to the world.
-/

namespace PoolMigration

open Js Interleave

/-! ## The log -/

/-- After `record` was on disk, run `t` read its row back with the record's
credential. -/
def verified (t : Nat) (record : PendingTransfer) : List Entry → Bool
  | [] => false
  | .poolRead t' _ load :: older =>
      (t' = t && (verifiedRow record load).isSome && .recordWritten record ∈ older) ||
        verified t record older
  | _ :: older => verified t record older

/-- The token row `id` holds. -/
def tokenOf (id : String) (rows : List PoolRow) : Option String :=
  (rowFor id rows).bind (·.refresh)

section Log

variable {t : Nat} {log newer : List Entry}

theorem spent_append (newer log : List Entry) : spent (newer ++ log) = spent newer ++ spent log :=
  List.filterMap_append ..

theorem lastRead_append (h : ∀ e ∈ newer, e.run? ≠ some t) :
    lastRead t (newer ++ log) = lastRead t log := by
  induction newer with
  | nil => rfl
  | cons e newer ih =>
      have hrest : lastRead t (newer ++ log) = lastRead t log :=
        ih fun x hx => h x (List.mem_cons_of_mem _ hx)
      have he := h e List.mem_cons_self
      cases e with
      | slotRead t' value =>
          have hne : t' ≠ t := fun heq => he (congrArg some heq)
          simp only [List.cons_append, lastRead, List.findSome?_cons, if_neg hne]
          exact hrest
      | _ =>
          simp only [List.cons_append, lastRead, List.findSome?_cons]
          exact hrest

theorem verified_append {record : PendingTransfer} (h : verified t record log = true) :
    verified t record (newer ++ log) = true := by
  induction newer with
  | nil => exact h
  | cons e newer ih =>
      cases e with
      | poolRead t' site load =>
          rw [List.cons_append, verified, ih]
          exact Bool.or_true _
      | _ => exact ih

end Log

/-! ## What one call does -/

section Exec

variable {setup : Setup} {store : PoolStore}

/-- Everything a call can do to the world. -/
theorem exec_cases {t : Nat} {o : Call} {ch : Choice} {w w' : World} {r : o.Ans}
    (h : exec setup store t o ch w = some (r, w')) :
    w' = w ∨
    (∃ lock, o = .acquire lock ∧ w.holder lock = none ∧ w' = w.setHolder lock (some t)) ∨
    (∃ lock, o = .release lock ∧ w.holder lock = some t ∧ w' = w.setHolder lock none) ∨
    (∃ u now, o = .updateConfig u ∧ w' = w.update t now u) ∨
    (∃ site load, o = .storeRead site ∧ w' = w.record (.poolRead t site load) ∧
      (load = w.pool.load ∨ load.rows = [])) ∨
    (∃ write pool, o = .storeWrite write ∧ w' = w.writeRows t write pool) ∨
    (o = .slotGet ∧ w' = w.get t) ∨
    (o = .slotSet ∧ w.seen = some w.slot ∧ w' = w.putPlaceholder t setup.placeholderOrigin) := by
  unfold exec at h
  split at h
  · exact .inl (Prod.mk.inj (Option.some.inj h)).2.symm
  · exact .inl (Prod.mk.inj (Option.some.inj h)).2.symm
  · exact .inl (Prod.mk.inj (Option.some.inj h)).2.symm
  · rename_i lock
    split at h
    · rename_i hfree
      exact .inr (.inl ⟨lock, rfl, hfree, (Prod.mk.inj (Option.some.inj h)).2.symm⟩)
    · cases h
  · exact .inl (Prod.mk.inj (Option.some.inj h)).2.symm
  · rename_i lock
    have hw := (Prod.mk.inj (Option.some.inj h)).2
    split at hw
    · rename_i hheld
      exact .inr (.inr (.inl ⟨lock, rfl, hheld, hw.symm⟩))
    · exact .inl hw.symm
  · exact .inl (Prod.mk.inj (Option.some.inj h)).2.symm
  · exact .inl (Prod.mk.inj (Option.some.inj h)).2.symm
  · rename_i u now
    exact .inr (.inr (.inr (.inl ⟨u, now, rfl, (Prod.mk.inj (Option.some.inj h)).2.symm⟩)))
  · exact .inl (Prod.mk.inj (Option.some.inj h)).2.symm
  · exact .inl (Prod.mk.inj (Option.some.inj h)).2.symm
  · rename_i site
    exact .inr (.inr (.inr (.inr (.inl ⟨site, _, rfl,
      (Prod.mk.inj (Option.some.inj h)).2.symm, .inl rfl⟩))))
  · rename_i site message
    exact .inr (.inr (.inr (.inr (.inl ⟨site, _, rfl,
      (Prod.mk.inj (Option.some.inj h)).2.symm, .inr rfl⟩))))
  · rename_i write
    split at h
    · rename_i pool hpool
      exact .inr (.inr (.inr (.inr (.inr (.inl ⟨write, pool, rfl,
        (Prod.mk.inj (Option.some.inj h)).2.symm⟩)))))
    · exact .inl (Prod.mk.inj (Option.some.inj h)).2.symm
  · exact .inl (Prod.mk.inj (Option.some.inj h)).2.symm
  · exact .inl (Prod.mk.inj (Option.some.inj h)).2.symm
  · exact .inl (Prod.mk.inj (Option.some.inj h)).2.symm
  · exact .inl (Prod.mk.inj (Option.some.inj h)).2.symm
  · exact .inr (.inr (.inr (.inr (.inr (.inr (.inl ⟨rfl,
      (Prod.mk.inj (Option.some.inj h)).2.symm⟩))))))
  · exact .inl (Prod.mk.inj (Option.some.inj h)).2.symm
  · split at h
    · rename_i hseen
      exact .inr (.inr (.inr (.inr (.inr (.inr (.inr ⟨rfl, hseen,
        (Prod.mk.inj (Option.some.inj h)).2.symm⟩))))))
    · exact .inl (Prod.mk.inj (Option.some.inj h)).2.symm
  · exact .inl (Prod.mk.inj (Option.some.inj h)).2.symm
  · exact .inl (Prod.mk.inj (Option.some.inj h)).2.symm
  · exact .inl (Prod.mk.inj (Option.some.inj h)).2.symm
  · exact .inl (Prod.mk.inj (Option.some.inj h)).2.symm
  · exact .inl (Prod.mk.inj (Option.some.inj h)).2.symm
  · exact .inl (Prod.mk.inj (Option.some.inj h)).2.symm
  · cases h

end Exec

end PoolMigration
