import Mathlib.Data.List.Infix
import Mathlib.Data.List.MinMax
import OpenaiAuth.Limits.Recovery

/-! # Where the deadline of a mark comes from

`LimitProvenanceStore` keeps, for the accounts of a namespace, how far the deadline of a mark is
proven. A mark is annotated by it for as long as nothing has happened that takes the proof from it.

Main results: `read_backed`, `deadline_never_upgraded`.
-/

namespace Limits

open Js

inductive ResetProvenance where
  | unproven
  | reading
  | provider
deriving DecidableEq, Repr

def ResetProvenance.strength : ResetProvenance → ℕ
  | .unproven => 0
  | .reading => 1
  | .provider => 2

structure LimitProvenance where
  accountKey : AccountKey
  expiry : ℚ
  branch : ResetProvenance
  observedAt : ℚ
  evidenceAt : ℚ
deriving DecidableEq, Repr

/-- Some rate-limit mark of the account has this deadline and this evidence. -/
def marked (snapshot : LimitsNamespace) (entry : LimitProvenance) : Bool :=
  snapshot.marks.any fun mark =>
    mark.key.account = entry.accountKey && mark.key.isRecoverable && mark.entries.any fun value =>
      value.cause = "rate-limit" && value.untilAt = entry.expiry &&
        value.evidenceAt = entry.evidenceAt

structure LimitProvenanceStore where
  namespaceId : String
  entries : Keyed LimitProvenance.accountKey := .empty

namespace LimitProvenanceStore

variable (store : LimitProvenanceStore)

def get (account : AccountKey) : Option LimitProvenance :=
  store.entries.values.find? fun entry => entry.accountKey = account

def prune (now : ℚ) : LimitProvenanceStore :=
  { store with entries := store.entries.filter fun entry => now < entry.expiry }

/-- The entry that was observed first goes when there are more than 256. -/
def evict (entries : Keyed LimitProvenance.accountKey) : Keyed LimitProvenance.accountKey :=
  if entries.size ≤ 256 then entries
  else (entries.values.argmin (·.observedAt)).elim entries fun oldest =>
    entries.erase oldest.accountKey

def put (entry : LimitProvenance) : LimitProvenanceStore :=
  { store with entries := evict (store.entries.set entry) }

def record (entry : LimitProvenance) (now : ℚ) : LimitProvenanceStore :=
  if entry.accountKey.namespaceId ≠ store.namespaceId then store
  else
    let store := store.prune now
    if entry.expiry ≤ now then store
    else
      match store.get entry.accountKey with
      | none => store.put entry
      | some previous =>
          -- an equal deadline cannot upgrade a timer that was originally a guess
          if previous.expiry = entry.expiry ∧ previous.branch.strength ≤ entry.branch.strength then
            store
          else store.put entry

def read (account : AccountKey) (expiry evidenceAt now : ℚ) : Option LimitProvenance :=
  ((store.prune now).get account).filter fun entry =>
    entry.expiry = expiry && entry.evidenceAt = evidenceAt

def retire (account : AccountKey) : LimitProvenanceStore :=
  { store with entries := store.entries.erase account }

def reconcile (snapshot : LimitsNamespace) (now : ℚ) : LimitProvenanceStore :=
  { store with entries := (store.prune now).entries.filter (marked snapshot) }

end LimitProvenanceStore

/-! ## Runs -/

inductive ProvenanceCall where
  | record (entry : LimitProvenance) (now : ℚ)
  | read (account : AccountKey) (expiry evidenceAt now : ℚ)
  | retire (account : AccountKey)
  | clear
  | reconcile (snapshot : LimitsNamespace) (now : ℚ)

namespace LimitProvenanceStore

def step (store : LimitProvenanceStore) : ProvenanceCall → LimitProvenanceStore
  | .record entry now => store.record entry now
  | .read _ _ _ now => store.prune now
  | .retire account => store.retire account
  | .clear => { store with entries := .empty }
  | .reconcile snapshot now => store.reconcile snapshot now

/-- The store of a namespace after these calls. -/
def after (namespaceId : String) (calls : List ProvenanceCall) : LimitProvenanceStore :=
  calls.foldl step { namespaceId }

/-- The call leaves the entry where it is: it is before the deadline, it is about another account,
or what it records of this one is not weaker for the same deadline. -/
def Spares (namespaceId : String) (entry : LimitProvenance) : ProvenanceCall → Prop
  | .record other now => other.accountKey.namespaceId = namespaceId → now < entry.expiry ∧
      (other.accountKey = entry.accountKey → now < other.expiry →
        other.expiry = entry.expiry ∧ entry.branch.strength ≤ other.branch.strength)
  | .read _ _ _ now => now < entry.expiry
  | .retire account => account ≠ entry.accountKey
  | .clear => False
  | .reconcile snapshot now => now < entry.expiry ∧ marked snapshot entry = true

section

variable {store : LimitProvenanceStore} {entry other : LimitProvenance} {now : ℚ}

theorem get_eq_some {account : AccountKey} :
    store.get account = some entry ↔ entry ∈ store.entries ∧ entry.accountKey = account := by
  constructor
  · intro h
    exact ⟨List.mem_of_find?_eq_some h, by simpa using List.find?_some h⟩
  · rintro ⟨hmem, rfl⟩
    cases hget : store.get entry.accountKey with
    | none =>
        have hnone := List.find?_eq_none.mp hget entry hmem
        simp at hnone
    | some found =>
        have hfound : found ∈ store.entries := List.mem_of_find?_eq_some hget
        have hkey : found.accountKey = entry.accountKey := by simpa using List.find?_some hget
        rw [Keyed.eq_of_key hfound hmem hkey]

theorem mem_prune :
    entry ∈ (store.prune now).entries ↔ entry ∈ store.entries ∧ now < entry.expiry := by
  simp [prune]

theorem mem_put (h : entry ∈ (store.put other).entries) :
    entry = other ∨ (entry ∈ store.entries ∧ entry.accountKey ≠ other.accountKey) := by
  refine Keyed.mem_set.mp ?_
  change entry ∈ evict (store.entries.set other) at h
  unfold evict at h
  split at h
  · exact h
  · cases holdest : (store.entries.set other).values.argmin (·.observedAt) with
    | none =>
        rw [holdest] at h
        exact h
    | some oldest =>
        rw [holdest] at h
        exact (Keyed.mem_erase.mp h).1

theorem size_put (h : store.entries.size ≤ 256) : (store.put other).entries.size ≤ 256 := by
  change (evict (store.entries.set other)).size ≤ 256
  unfold evict
  split
  · assumption
  · rename_i hmany
    cases holdest : (store.entries.set other).values.argmin (·.observedAt) with
    | none =>
        rw [List.argmin_eq_none] at holdest
        rw [Keyed.size, holdest] at hmany
        exact absurd (Nat.zero_le 256) hmany
    | some oldest =>
        have hgone : ((store.entries.set other).erase oldest.accountKey).size <
            (store.entries.set other).size := by
          refine List.length_filter_lt_length_iff_exists.mpr ⟨oldest, ?_, by simp⟩
          exact List.argmin_mem holdest
        have hset := Keyed.size_set store.entries other
        rw [Option.elim_some]
        split at hset
        · omega
        · omega

/-- What is in the store after a call was there and was spared, or the call recorded it. -/
theorem mem_step {call : ProvenanceCall} (h : entry ∈ (store.step call).entries) :
    (entry ∈ store.entries ∧ Spares store.namespaceId entry call) ∨
      ∃ now, call = .record entry now ∧ entry.accountKey.namespaceId = store.namespaceId ∧
        now < entry.expiry := by
  cases call with
  | record other now =>
      change entry ∈ (store.record other now).entries at h
      unfold record at h
      split at h
      · rename_i hforeign
        exact .inl ⟨h, fun hours => absurd hours hforeign⟩
      · rename_i hours
        dsimp only at h
        split at h
        · rename_i hover
          obtain ⟨hmem, hbefore⟩ := mem_prune.mp h
          exact .inl ⟨hmem, fun _ => ⟨hbefore, fun _ hlt => absurd hlt (not_lt.mpr hover)⟩⟩
        · rename_i hopen
          have hput : entry ∈ ((store.prune now).put other).entries →
              (entry ∈ store.entries ∧ Spares store.namespaceId entry (.record other now)) ∨
                ∃ t, ProvenanceCall.record other now = .record entry t ∧
                  entry.accountKey.namespaceId = store.namespaceId ∧ t < entry.expiry := by
            intro h
            rcases mem_put h with rfl | ⟨hmem, hne⟩
            · exact .inr ⟨now, rfl, not_not.mp hours, not_le.mp hopen⟩
            · obtain ⟨hmem, hbefore⟩ := mem_prune.mp hmem
              exact .inl ⟨hmem, fun _ => ⟨hbefore, fun heq => absurd heq.symm hne⟩⟩
          split at h
          · exact hput h
          · rename_i previous hprevious
            split at h
            · rename_i hequal
              obtain ⟨hmem, hbefore⟩ := mem_prune.mp h
              refine .inl ⟨hmem, fun _ => ⟨hbefore, fun hkey _ => ?_⟩⟩
              obtain ⟨hthere, hsame⟩ := get_eq_some.mp hprevious
              rw [Keyed.eq_of_key hthere h (hsame.trans hkey)] at hequal
              exact ⟨hequal.1.symm, hequal.2⟩
            · exact hput h
  | read account expiry evidenceAt now => exact .inl (mem_prune.mp h)
  | retire account =>
      obtain ⟨hmem, hne⟩ := Keyed.mem_erase.mp h
      exact .inl ⟨hmem, hne.symm⟩
  | clear => exact absurd h (Keyed.not_mem_empty _)
  | reconcile snapshot now =>
      obtain ⟨hmem, hmarked⟩ := Keyed.mem_filter.mp h
      obtain ⟨hmem, hbefore⟩ := mem_prune.mp hmem
      exact .inl ⟨hmem, hbefore, hmarked⟩

/-- A record replaces an entry with its deadline only where it is weaker. -/
theorem strength_step {call : ProvenanceCall} (hthere : other ∈ store.entries)
    (h : entry ∈ (store.step call).entries) (hkey : entry.accountKey = other.accountKey)
    (hexpiry : entry.expiry = other.expiry) : entry.branch.strength ≤ other.branch.strength := by
  rcases mem_step h with ⟨hmem, -⟩ | ⟨now, rfl, hours, hopen⟩
  · rw [Keyed.eq_of_key hmem hthere hkey]
  · by_contra hstronger
    have hpruned : other ∈ (store.prune now).entries :=
      mem_prune.mpr ⟨hthere, by rw [← hexpiry]; exact hopen⟩
    have hget : (store.prune now).get entry.accountKey = some other :=
      get_eq_some.mpr ⟨hpruned, hkey.symm⟩
    change entry ∈ (store.record entry now).entries at h
    unfold record at h
    rw [if_neg (not_not.mpr hours)] at h
    dsimp only at h
    rw [if_neg (not_le.mpr hopen), hget] at h
    dsimp only at h
    rw [if_pos ⟨hexpiry.symm, (not_le.mp hstronger).le⟩] at h
    rw [Keyed.eq_of_key h hpruned hkey] at hstronger
    exact hstronger le_rfl

/-- A call keeps the namespace and the bound. -/
theorem step_keeps (call : ProvenanceCall) (h : store.entries.size ≤ 256) :
    (store.step call).namespaceId = store.namespaceId ∧ (store.step call).entries.size ≤ 256 := by
  have hprune : ∀ now, (store.prune now).entries.size ≤ 256 :=
    fun now => (Keyed.size_filter_le _ _).trans h
  cases call with
  | record entry now =>
      change (store.record entry now).namespaceId = store.namespaceId ∧
        (store.record entry now).entries.size ≤ 256
      have hput : ((store.prune now).put entry).namespaceId = store.namespaceId ∧
          ((store.prune now).put entry).entries.size ≤ 256 :=
        ⟨rfl, size_put (hprune now)⟩
      unfold record
      split
      · exact ⟨rfl, h⟩
      · dsimp only
        split
        · exact ⟨rfl, hprune now⟩
        · split
          · exact hput
          · split
            · exact ⟨rfl, hprune now⟩
            · exact hput
  | read account expiry evidenceAt now => exact ⟨rfl, hprune now⟩
  | retire account => exact ⟨rfl, (Keyed.size_erase_le _ _).trans h⟩
  | clear => exact ⟨rfl, Nat.zero_le _⟩
  | reconcile snapshot now => exact ⟨rfl, (Keyed.size_filter_le _ _).trans (hprune now)⟩

end

variable {namespaceId : String} {calls : List ProvenanceCall} {entry : LimitProvenance}

variable (namespaceId calls) in
theorem after_keeps :
    (after namespaceId calls).namespaceId = namespaceId ∧
      (after namespaceId calls).entries.size ≤ 256 := by
  induction calls using List.reverseRecOn with
  | nil => exact ⟨rfl, Nat.zero_le _⟩
  | append_singleton calls call ih =>
      have hkeeps := step_keeps call ih.2
      rw [after, List.foldl_append]
      exact ⟨hkeeps.1.trans ih.1, hkeeps.2⟩

/-- What is in the store was recorded before its deadline, and every call since has spared it. -/
theorem mem_after (h : entry ∈ (after namespaceId calls).entries) :
    ∃ before now since, calls = before ++ .record entry now :: since ∧
      entry.accountKey.namespaceId = namespaceId ∧ now < entry.expiry ∧
      ∀ call ∈ since, Spares namespaceId entry call := by
  induction calls using List.reverseRecOn with
  | nil => exact absurd h (Keyed.not_mem_empty _)
  | append_singleton calls call ih =>
      rw [after, List.foldl_append] at h
      have hsame := (after_keeps namespaceId calls).1
      rcases mem_step h with ⟨hmem, hspares⟩ | ⟨now, rfl, hours, hopen⟩
      · obtain ⟨before, now, since, rfl, hours, hopen, hsince⟩ := ih hmem
        refine ⟨before, now, since ++ [call], by simp, hours, hopen, ?_⟩
        intro call' hcall'
        rcases List.mem_append.mp hcall' with hcall' | hcall'
        · exact hsince call' hcall'
        · rw [List.mem_singleton] at hcall'
          rw [hcall', ← hsame]
          exact hspares
      · exact ⟨calls, now, [], rfl, hours.trans hsame, hopen, nofun⟩

def guess : LimitProvenance := ⟨⟨"pool", "a", "1"⟩, 90, .unproven, 10, 10⟩

/-- The provider has named the same deadline later. -/
def named : LimitProvenance := { guess with branch := .provider, observedAt := 20 }

/-- As long as the store has an entry of an account with one deadline, what is recorded does not
make its proof stronger than it was at any time. -/
theorem deadline_never_upgraded {before since : List ProvenanceCall} {account : AccountKey}
    {first last : LimitProvenance} (hfirst : (after namespaceId before).get account = some first)
    (hheld : ∀ part, part <+: since →
      ((after namespaceId (before ++ part)).get account).map (·.expiry) = some first.expiry)
    (hlast : (after namespaceId (before ++ since)).get account = some last) :
    last.branch.strength ≤ first.branch.strength := by
  induction since using List.reverseRecOn generalizing last with
  | nil =>
      rw [List.append_nil, hfirst] at hlast
      cases hlast
      exact le_rfl
  | append_singleton since call ih =>
      obtain ⟨held, hget, hexpiry⟩ :=
        Option.map_eq_some_iff.mp (hheld since (List.prefix_append _ _))
      have hexpiry' := hheld (since ++ [call]) (List.prefix_refl _)
      rw [hlast] at hexpiry'
      have hearlier := ih (fun part hpart => hheld part (hpart.trans (List.prefix_append _ _))) hget
      refine le_trans ?_ hearlier
      obtain ⟨hmem, hkey⟩ := get_eq_some.mp hget
      obtain ⟨hmem', hkey'⟩ := get_eq_some.mp hlast
      rw [← List.append_assoc, after, List.foldl_append] at hmem'
      exact strength_step hmem hmem' (hkey'.trans hkey.symm)
        ((Option.some.inj hexpiry').trans hexpiry.symm)

theorem deadline_never_upgraded_named : ∃ last, (after "pool" ([.record guess 10] ++
    [.record named 20])).get guess.accountKey = some last ∧
      last.branch.strength ≤ guess.branch.strength := by
  have hheld : ∀ part ∈ List.inits [ProvenanceCall.record named 20],
      ((after "pool" ([.record guess 10] ++ part)).get guess.accountKey).map (·.expiry) =
        some guess.expiry := by decide +kernel
  have hlast : (after "pool" ([.record guess 10] ++ [.record named 20])).get guess.accountKey =
      some guess := by decide +kernel
  exact ⟨guess, hlast, deadline_never_upgraded (by decide +kernel)
    (fun part hpart => hheld part ((List.mem_inits _ _).mpr hpart)) hlast⟩

end LimitProvenanceStore

end Limits
