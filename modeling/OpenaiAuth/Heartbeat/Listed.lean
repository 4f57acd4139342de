import OpenaiAuth.Heartbeat.ProcessHeartbeat

/-! # What a heartbeat lists

The content of a write is fixed when its call begins, and a removal is decided by the owner
count of one copy; either may reach the file after something newer. `Lapse` are the file
operations by which that loses something.

Main result: `heartbeat_lists`, over every run without a lapse.
-/

namespace Heartbeat

open Js

variable {κ : Type} [DecidableEq κ]

/-! ## Calls under way -/

def FileOp.PutsInPlace (op : FileOp) : Prop := ∃ heartbeat, op = .rename .canonical heartbeat

/-- The call still has to put its file in place. -/
def Call.Writes (call : Call) : Prop := ∃ op ∈ call.ops, op.PutsInPlace

def ProcessHeartbeat.Lists (heartbeat : ProcessHeartbeat) (key : String) : Prop :=
  heartbeat.layouts.get key = some .legacy

omit [DecidableEq κ]

/-- A legacy layout was recorded. -/
def State.Recorded (s : State κ) (key : String) : Prop :=
  ∃ call ∈ s.calls, call.records = some key

/-- The file of its recording has been put in place. -/
def State.InPlace (s : State κ) (key : String) : Prop :=
  ∃ call ∈ s.calls, call.records = some key ∧ ¬ call.Writes

def State.Owned (s : State κ) : Prop := ∃ handle ∈ s.handles, handle.released = false

def State.Writing (s : State κ) : Prop := ∃ call ∈ s.calls, call.Writes

def State.Quiet (s : State κ) : Prop := ∀ call ∈ s.calls, call.ops = []

def State.nextOp (s : State κ) (n : ℕ) : Option FileOp := (s.calls[n]?).bind (·.ops.head?)

/-- A write that began before a layout was recorded goes over the file that lists it; or the
file is removed under a recorded layout, or under an owner for whom no write is under way. -/
def Lapse (s : State κ) : Event κ → Prop
  | .advance n =>
      match s.nextOp n with
      | some (.rename .canonical heartbeat) => ∃ key, s.InPlace key ∧ ¬ heartbeat.Lists key
      | some (.rm .canonical) => (∃ key, s.InPlace key) ∨ (s.Owned ∧ ¬ s.Writing)
      | _ => False
  | _ => False

/-! ## The invariant -/

/-- The file lists what is in place; each recording under way lists its own layout; and where
there is an owner there is the file, or a write is under way. -/
structure Inv (s : State κ) : Prop where
  lists : ∀ key, s.InPlace key → ∃ heartbeat, s.file = some heartbeat ∧ heartbeat.Lists key
  records : ∀ call ∈ s.calls, ∀ key, call.records = some key → ∀ heartbeat,
    .rename .canonical heartbeat ∈ call.ops → heartbeat.Lists key
  owned : s.Owned → s.file.isSome ∨ s.Writing

/-- One more call; the files are as they were. -/
theorem Inv.call {s s' : State κ} {call : Call} (h : Inv s) (hfile : s'.file = s.file)
    (hcalls : s'.calls = s.calls ++ [call]) (howned : s'.Owned → s.Owned ∨ call.Writes)
    (hrecords : ∀ key, call.records = some key → call.Writes ∧
      ∀ heartbeat, .rename .canonical heartbeat ∈ call.ops → heartbeat.Lists key) : Inv s' := by
  have hmem : ∀ c ∈ s'.calls, c ∈ s.calls ∨ c = call := by
    intro c hc
    rw [hcalls] at hc
    simpa using hc
  refine ⟨?_, ?_, ?_⟩
  · rintro key ⟨c, hc, hkey, hplaced⟩
    rw [hfile]
    rcases hmem c hc with hold | rfl
    · exact h.lists key ⟨c, hold, hkey, hplaced⟩
    · exact absurd (hrecords key hkey).1 hplaced
  · intro c hc key hkey
    rcases hmem c hc with hold | rfl
    · exact h.records c hold key hkey
    · exact (hrecords key hkey).2
  · intro hs'
    rw [hfile]
    rcases howned hs' with hs | hwrites
    · rcases h.owned hs with hsome | ⟨c, hc, hwrites⟩
      · exact .inl hsome
      · exact .inr ⟨c, by rw [hcalls]; exact List.mem_append_left _ hc, hwrites⟩
    · exact .inr ⟨call, by rw [hcalls]; exact List.mem_append_right _ List.mem_cons_self, hwrites⟩

theorem writes_writeHeartbeatFile (s : State κ) (heartbeat : ProcessHeartbeat)
    (records : Option String) : Call.Writes ⟨records, s.writeHeartbeatFile heartbeat⟩ := by
  refine ⟨.rename .canonical heartbeat, ?_, heartbeat, rfl⟩
  rw [State.writeHeartbeatFile]
  split <;> simp

theorem rename_mem_writeHeartbeatFile {s : State κ} {heartbeat other : ProcessHeartbeat}
    (h : .rename .canonical other ∈ s.writeHeartbeatFile heartbeat) : other = heartbeat := by
  rw [State.writeHeartbeatFile] at h
  split at h <;> simpa using h

/-- A recorded layout is in the record, under its own key or under the sentinel's. -/
theorem get_layoutsRecord {s : State κ} {key : String}
    (h : s.processLayouts.get key = some .legacy) : s.layoutsRecord.get key = some .legacy := by
  rw [State.layoutsRecord]
  split
  · rw [Table.get_set]
    split
    · rfl
    · exact h
  · exact h

theorem mem_set {handles : List (Handle κ)} {n : ℕ} {handle x : Handle κ}
    (h : x ∈ handles.set n { handle with released := true }) (hx : x.released = false) :
    x ∈ handles := by
  rcases List.mem_or_eq_of_mem_set h with hmem | rfl
  · exact hmem
  · cases hx

section Step

variable [DecidableEq κ]

theorem start_inv {s : State κ} (h : Inv s) (copy : κ) (version : String) (now : ℤ) :
    Inv (s.startProcessHeartbeat copy version now) :=
  h.call rfl rfl (fun _ => .inr (writes_writeHeartbeatFile s _ none)) nofun

theorem release_inv {s : State κ} (h : Inv s) (n : ℕ) (handle : Handle κ) :
    Inv (s.release n handle) := by
  rw [State.release]
  split
  · exact h.call rfl rfl .inl nofun
  · refine h.call rfl rfl ?_ nofun
    rintro ⟨x, hmem, hx⟩
    exact .inl ⟨x, mem_set hmem hx, hx⟩

theorem record_inv {s : State κ} (h : Inv s) (copy : κ) (key : String) (layout : ProcessLayout)
    (version : String) (now : ℤ) : Inv (s.recordProcessLayout copy key layout version now) := by
  rw [State.recordProcessLayout]
  dsimp only
  generalize (if s.legacyGeneration = true then ProcessLayout.legacy else layout) = layout
  split
  · exact h.call rfl rfl .inl nofun
  · rename_i hlegacy
    refine h.call rfl rfl .inl ?_
    intro key' hkey
    cases hkey
    refine ⟨writes_writeHeartbeatFile _ _ _, ?_⟩
    intro heartbeat hmem
    rw [rename_mem_writeHeartbeatFile hmem, ProcessHeartbeat.Lists]
    -- the map is set before the record is read
    refine get_layoutsRecord ?_
    rw [Table.get_set_self, not_not.mp hlegacy]

/-- Where a call does an operation that leaves `<pid>.json` alone, it has the same left to put in
place. -/
theorem writes_cons {records : Option String} {op : FileOp} {ops : List FileOp}
    (hop : ¬ op.PutsInPlace) : Call.Writes ⟨records, op :: ops⟩ ↔ Call.Writes ⟨records, ops⟩ := by
  constructor
  · rintro ⟨x, hmem, hx⟩
    rcases List.mem_cons.mp hmem with rfl | hmem
    · exact absurd hx hop
    · exact ⟨x, hmem, hx⟩
  · rintro ⟨x, hmem, hx⟩
    exact ⟨x, List.mem_cons_of_mem _ hmem, hx⟩

omit [DecidableEq κ] in
theorem advance_inv {s : State κ} {n : ℕ} {records : Option String} {op : FileOp}
    {ops : List FileOp} (h : Inv s) (hcall : s.calls[n]? = some ⟨records, op :: ops⟩)
    (hlapse : ¬ Lapse s (.advance n)) :
    Inv { s.perform op with calls := s.calls.set n ⟨records, ops⟩ } := by
  have hold : (⟨records, op :: ops⟩ : Call) ∈ s.calls := List.mem_of_getElem? hcall
  have hn : n < s.calls.length := (List.getElem?_eq_some_iff.mp hcall).1
  have hself : (⟨records, ops⟩ : Call) ∈ s.calls.set n ⟨records, ops⟩ :=
    List.mem_set hn _
  have hnext : s.nextOp n = some op := by
    rw [State.nextOp, hcall]
    rfl
  have hrecords : ∀ call ∈ s.calls.set n ⟨records, ops⟩, ∀ key, call.records = some key →
      ∀ heartbeat, .rename .canonical heartbeat ∈ call.ops → heartbeat.Lists key := by
    intro call hmem key hkey heartbeat hrename
    rcases List.mem_or_eq_of_mem_set hmem with hmem | rfl
    · exact h.records call hmem key hkey heartbeat hrename
    · exact h.records _ hold key hkey heartbeat (List.mem_cons_of_mem _ hrename)
  by_cases hplaces : op.PutsInPlace
  · obtain ⟨heartbeat, rfl⟩ := hplaces
    rw [Lapse, hnext] at hlapse
    have hfresh : ∀ key, s.InPlace key → heartbeat.Lists key := by
      intro key hkey
      by_contra hnot
      exact hlapse ⟨key, hkey, hnot⟩
    refine ⟨?_, hrecords, fun _ => .inl rfl⟩
    rintro key ⟨call, hmem, hkey, hplaced⟩
    refine ⟨heartbeat, rfl, ?_⟩
    rcases List.mem_or_eq_of_mem_set hmem with hmem | rfl
    · exact hfresh key ⟨call, hmem, hkey, hplaced⟩
    · exact h.records _ hold key hkey heartbeat List.mem_cons_self
  · have hwriting : s.Writing → State.Writing (κ := κ)
        { s.perform op with calls := s.calls.set n ⟨records, ops⟩ } := by
      rintro ⟨call, hmem, hwrites⟩
      obtain ⟨m, hm⟩ := List.mem_iff_getElem?.mp hmem
      by_cases hmn : n = m
      · subst hmn
        rw [hcall] at hm
        cases hm
        exact ⟨_, hself, (writes_cons hplaces).mp hwrites⟩
      · refine ⟨call, List.mem_of_getElem? (i := m) ?_, hwrites⟩
        rw [List.getElem?_set_ne hmn, hm]
    have hinPlace : ∀ key, State.InPlace (κ := κ)
        { s.perform op with calls := s.calls.set n ⟨records, ops⟩ } key → s.InPlace key := by
      rintro key ⟨call, hmem, hkey, hplaced⟩
      rcases List.mem_or_eq_of_mem_set hmem with hmem | rfl
      · exact ⟨call, hmem, hkey, hplaced⟩
      · exact ⟨_, hold, hkey, fun hwrites => hplaced ((writes_cons hplaces).mp hwrites)⟩
    have howned : State.Owned (κ := κ) { s.perform op with calls := s.calls.set n ⟨records, ops⟩ } →
        s.Owned := by
      rintro ⟨handle, hmem, hreleased⟩
      refine ⟨handle, ?_, hreleased⟩
      cases op with
      | rm target | rename target => cases target <;> exact hmem
      | _ => exact hmem
    by_cases hremoves : op = .rm .canonical
    · subst hremoves
      rw [Lapse, hnext] at hlapse
      rw [not_or] at hlapse
      refine ⟨?_, hrecords, ?_⟩
      · intro key hkey
        exact absurd ⟨key, hinPlace key hkey⟩ hlapse.1
      · intro hs
        exact .inr (hwriting (by_contra fun hnot => hlapse.2 ⟨howned hs, hnot⟩))
    · have hfile : (s.perform op).file = s.file := by
        cases op with
        | rm target =>
            cases target with
            | canonical => exact absurd rfl hremoves
            | legacy => rfl
        | rename target heartbeat =>
            cases target with
            | canonical => exact absurd ⟨heartbeat, rfl⟩ hplaces
            | legacy => rfl
        | _ => rfl
      refine ⟨?_, hrecords, ?_⟩
      · intro key hkey
        rw [hfile]
        exact h.lists key (hinPlace key hkey)
      · intro hs
        rw [hfile]
        exact (h.owned (howned hs)).imp id hwriting

theorem step_inv {s s' : State κ} {e : Event κ} (h : Inv s) (hlapse : ¬ Lapse s e)
    (hstep : s.step e = some s') : Inv s' := by
  cases e with
  | start copy version now =>
      cases hstep
      exact start_inv h copy version now
  | release n =>
      obtain ⟨handle, -, rfl⟩ := Option.map_eq_some_iff.mp hstep
      exact release_inv h n handle
  | record copy key layout version now =>
      cases hstep
      exact record_inv h copy key layout version now
  | advance n =>
      simp only [State.step] at hstep
      split at hstep
      · rename_i records op ops hcall
        cases hstep
        exact advance_inv h hcall hlapse
      · cases hstep

/-! ## Runs -/

/-- The states of a process without a lapse. -/
inductive Reached (pid : ℕ) (legacyGeneration : Bool) : State κ → Prop
  | init : Reached pid legacyGeneration { pid := pid, legacyGeneration := legacyGeneration }
  | step {s s' : State κ} {e : Event κ} (h : Reached pid legacyGeneration s) (hlapse : ¬ Lapse s e)
      (hstep : s.step e = some s') : Reached pid legacyGeneration s'

variable {pid : ℕ} {legacyGeneration : Bool}

theorem Reached.inv {s : State κ} (h : Reached pid legacyGeneration s) : Inv s := by
  induction h with
  | init =>
      refine ⟨?_, nofun, ?_⟩
      · rintro key ⟨call, hmem, -⟩
        cases hmem
      · rintro ⟨handle, hmem, -⟩
        cases hmem
  | step _ hlapse hstep ih => exact step_inv ih hlapse hstep

/-- The file of a process that has a legacy layout keeps the fence of a move shut. -/
theorem blocks_of_lists {fence : Fence} {heartbeat : ProcessHeartbeat} {key : String}
    (hself : pid ≠ fence.selfPid) (halive : fence.isAlive pid = true)
    (hmove : fence.layoutMove = true) (hstale : fence.staleBefore ≤ heartbeat.startedAt)
    (hlists : heartbeat.Lists key) : fence.blocks pid (some heartbeat) = true := by
  have hlegacy : heartbeat.layouts.entries.any (·.2 = .legacy) = true := by
    rw [List.any_eq_true]
    exact ⟨_, Table.get_eq_some.mp hlists, rfl⟩
  unfold Fence.blocks
  dsimp only
  rw [if_neg hself, if_neg (by simp [hstale]), if_neg (by simp [halive])]
  split
  · rfl
  · split
    · rfl
    · rw [hmove, hlegacy]
      simp

end Step

/-- Nothing is lost while every call still writes and none is about to remove the file. -/
theorem not_lapse_of_writes {κ : Type} {s : State κ} {n : ℕ} (h : ∀ call ∈ s.calls, call.Writes)
    (hop : s.nextOp n ≠ some (.rm .canonical)) : ¬ Lapse s (.advance n) := by
  have hplaced : ∀ key, ¬ s.InPlace key := by
    rintro key ⟨call, hmem, -, hnot⟩
    exact hnot (h call hmem)
  intro hlapse
  rw [Lapse] at hlapse
  split at hlapse
  · obtain ⟨key, hkey, -⟩ := hlapse
    exact hplaced key hkey
  · rename_i hnext
    exact hop hnext
  · exact hlapse

theorem quiet_of_ops {κ : Type} {s : State κ} (h : s.calls.all (·.ops = []) = true) : s.Quiet :=
  fun call hmem => of_decide_eq_true (List.all_eq_true.mp h call hmem)

end Heartbeat
