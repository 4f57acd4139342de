import Mathlib.Data.List.Basic
import Mathlib.Logic.Function.Basic

/-! # The bookkeeping queue

`createSidebarBookkeepingQueue`: writes are started at once, a failed one is
retried from a shared timer, and a newer write under its key replaces it. The
queue is a state with one step for each callback that may run: the three calls,
a write that lands or fails, and the timer. A callback runs to its end before
the next one; no write of the plugin calls the queue while it is being started.

Main results, for every run of callbacks:

* `Reachable.inv`: the invariant, kept by every callback;
* `queue_safe`: no superseded or cancelled write runs again, and none that is
  still wanted is lost.
-/

namespace Sidebar.Queue

/-- A write that waits for the timer. `write` is the number of the `enqueue`
call that brought it. -/
structure Retry where
  label : String
  write : Nat
deriving DecidableEq, Repr

/-- A write in flight. -/
structure Running where
  key : String
  label : String
  write : Nat
  ownGeneration : Nat
deriving DecidableEq, Repr

/-- What happened to a write. -/
inductive Entry where
  | enqueued (key : String) (write : Nat)
  | cancelled (key : String)
  | started (key : String) (write : Nat)
  | landed (key : String) (write : Nat)
  | requeued (key : String) (write : Nat)
deriving DecidableEq, Repr

structure Options where
  retryDelayMs : Nat := 500
  maxRetryDelayMs : Nat := 30000

structure State where
  generation : String → Option Nat
  /-- The map from keys to retries, in the order of insertion. -/
  retries : List (String × Retry)
  failing : List String
  sequence : Nat
  delayMs : Nat
  /-- The delay the timer was armed with. -/
  timer : Option Nat
  stopped : Bool
  running : List Running
  /-- Newest first. -/
  log : List Entry

def State.initial (options : Options) : State where
  generation := fun _ => none
  retries := []
  failing := []
  sequence := 0
  delayMs := options.retryDelayMs
  timer := none
  stopped := false
  running := []
  log := []

/-! ## Maps and sets -/

def remove (key : String) (retries : List (String × Retry)) : List (String × Retry) :=
  retries.filter fun entry => entry.1 ≠ key

/-- `retries.set(key, retry)`: a present key keeps its place. -/
def insert (key : String) (retry : Retry) (retries : List (String × Retry)) :
    List (String × Retry) :=
  if retries.any (·.1 = key) then
    retries.map fun entry => if entry.1 = key then (key, retry) else entry
  else retries ++ [(key, retry)]

theorem mem_remove {key : String} {entry : String × Retry} {retries : List (String × Retry)} :
    entry ∈ remove key retries ↔ entry ∈ retries ∧ entry.1 ≠ key := by
  simp [remove]

/-- After an insertion a key has the new retry, and the others what they had. -/
theorem mem_insert {key : String} {retry : Retry} {entry : String × Retry}
    {retries : List (String × Retry)} :
    entry ∈ insert key retry retries ↔
      entry = (key, retry) ∨ (entry ∈ retries ∧ entry.1 ≠ key) := by
  unfold insert
  by_cases hany : retries.any (·.1 = key) = true
  · rw [if_pos hany]
    have hpresent : ∃ other ∈ retries, other.1 = key := by simpa using hany
    constructor
    · intro h
      rcases List.mem_map.mp h with ⟨other, hmem, heq⟩
      by_cases hk : other.1 = key
      · rw [if_pos hk] at heq
        exact Or.inl heq.symm
      · rw [if_neg hk] at heq
        rw [← heq]
        exact Or.inr ⟨hmem, hk⟩
    · intro h
      apply List.mem_map.mpr
      rcases h with h | ⟨hmem, hne⟩
      · rcases hpresent with ⟨other, hmem, hk⟩
        exact ⟨other, hmem, by rw [if_pos hk, h]⟩
      · exact ⟨entry, hmem, by rw [if_neg hne]⟩
  · rw [if_neg hany]
    have habsent : ∀ other ∈ retries, other.1 ≠ key := by
      intro other hmem hk
      exact hany (List.any_eq_true.mpr ⟨other, hmem, by simpa using hk⟩)
    rw [List.mem_append, List.mem_singleton]
    constructor
    · intro h
      rcases h with hmem | h
      · exact Or.inr ⟨hmem, habsent entry hmem⟩
      · exact Or.inl h
    · intro h
      rcases h with h | ⟨hmem, -⟩
      · exact Or.inr h
      · exact Or.inl hmem

/-! ## The callbacks -/

namespace State

/-- Arms the timer, unless it is armed, the queue stopped or nothing waits. -/
def schedule (q : State) : State :=
  if q.timer.isSome || q.stopped || q.retries.isEmpty then q
  else { q with timer := some q.delayMs }

/-- Starts a write. One that throws at once is in flight until its rejection
is handled. -/
def attempt (q : State) (key label : String) (write ownGeneration : Nat) : State :=
  { q with
    running := q.running ++ [{ key, label, write, ownGeneration }]
    log := .started key write :: q.log }

def enqueue (q : State) (key label : String) : State :=
  let sequence := q.sequence + 1
  attempt
    { q with
      sequence
      generation := Function.update q.generation key (some sequence)
      retries := remove key q.retries
      log := .enqueued key sequence :: q.log }
    key label sequence sequence

def cancel (q : State) (key : String) : State :=
  { q with
    generation := Function.update q.generation key none
    retries := remove key q.retries
    failing := q.failing.filter (· ≠ key)
    log := .cancelled key :: q.log }

def stop (q : State) : State :=
  { q with stopped := true, timer := none, retries := [] }

/-- The writes that were waiting when the timer fired are started again. -/
def retryDue (q : State) : List (String × Retry) → State
  | [] => q
  | (key, retry) :: due =>
      match q.generation key with
      | some current => retryDue (q.attempt key retry.label retry.write current) due
      | none => retryDue q due

def timerFires (options : Options) (q : State) : State :=
  retryDue
    { q with
      timer := none
      retries := []
      delayMs := min (q.delayMs * 2) options.maxRetryDelayMs }
    q.retries

/-- The first handler of `attempt`, once the write has landed. -/
def lands (options : Options) (q : State) (a : Running) : State :=
  let q := { q with log := .landed a.key a.write :: q.log }
  if q.generation a.key ≠ some a.ownGeneration then q
  else
    let failing := q.failing.filter (· ≠ a.key)
    { q with
      generation := Function.update q.generation a.key none
      failing
      delayMs := if failing.isEmpty then options.retryDelayMs else q.delayMs }

/-- The second handler: a write nobody has replaced waits for the timer. -/
def fails (q : State) (a : Running) : State :=
  if q.generation a.key ≠ some a.ownGeneration then q
  else if q.stopped then { q with generation := Function.update q.generation a.key none }
  else
    schedule
      { q with
        failing := if a.key ∈ q.failing then q.failing else q.failing ++ [a.key]
        retries := insert a.key { label := a.label, write := a.write } q.retries
        log := .requeued a.key a.write :: q.log }

end State

/-- One callback. `landed i` and `failed i` settle the `i`-th write in flight. -/
inductive Callback where
  | enqueue (key label : String)
  | cancel (key : String)
  | stop
  | landed (i : Nat)
  | failed (i : Nat)
  | timerFires
deriving DecidableEq, Repr

/-- `none` when the callback cannot run: no such write, or no timer armed. -/
def step (options : Options) (q : State) : Callback → Option State
  | .enqueue key label => some (q.enqueue key label)
  | .cancel key => some (q.cancel key)
  | .stop => some q.stop
  | .landed i =>
      q.running[i]?.map fun a => State.lands options { q with running := q.running.eraseIdx i } a
  | .failed i =>
      q.running[i]?.map fun a => State.fails { q with running := q.running.eraseIdx i } a
  | .timerFires => if q.timer.isSome then some (q.timerFires options) else none

def run (options : Options) (q : State) : List Callback → Option State
  | [] => some q
  | c :: cs => (step options q c).bind fun q' => run options q' cs

/-! ## Reading the log -/

/-- The newest write under `key`, unless it was cancelled. -/
def newest (key : String) : List Entry → Option Nat
  | [] => none
  | .enqueued k n :: older => if k = key then some n else newest key older
  | .cancelled k :: older => if k = key then none else newest key older
  | _ :: older => newest key older

/-- The newest write under `key`, unless it was cancelled or has landed. -/
def wanted (key : String) : List Entry → Option Nat
  | [] => none
  | .enqueued k n :: older => if k = key then some n else wanted key older
  | .cancelled k :: older => if k = key then none else wanted key older
  | .landed k n :: older => if k = key ∧ wanted key older = some n then none else wanted key older
  | _ :: older => wanted key older

/-- The entry starts or requeues a write. -/
def Entry.runs : Entry → Option (String × Nat)
  | started key n | requeued key n => some (key, n)
  | _ => none

/-- Whatever the log starts or requeues was the newest write under its key. -/
def Timely : List Entry → Prop
  | [] => True
  | e :: older => (∀ key n, e.runs = some (key, n) → newest key older = some n) ∧ Timely older

/-- The writes are numbered in the order they came. -/
def Numbered (sequence : Nat) : List Entry → Prop
  | [] => True
  | .enqueued _ n :: older => n ≤ sequence ∧ 0 < n ∧ Numbered (n - 1) older
  | _ :: older => Numbered sequence older

theorem Numbered.mono {m n : Nat} {log : List Entry} (h : Numbered m log) (hmn : m ≤ n) :
    Numbered n log := by
  induction log with
  | nil => trivial
  | cons e older ih =>
      cases e with
      | enqueued key k =>
          have hk : k ≤ m ∧ 0 < k ∧ Numbered (k - 1) older := h
          exact ⟨by omega, hk.2⟩
      | _ => exact ih h

theorem Numbered.le {m n : Nat} {key : String} {log : List Entry} (h : Numbered m log)
    (hn : .enqueued key n ∈ log) : n ≤ m := by
  induction log generalizing m with
  | nil => cases hn
  | cons e older ih =>
      rcases List.mem_cons.mp hn with heq | hold
      · rw [← heq] at h
        exact h.1
      · cases e with
        | enqueued k j =>
            have hj : j ≤ m ∧ 0 < j ∧ Numbered (j - 1) older := h
            have hle : n ≤ j - 1 := ih hj.2.2 hold
            omega
        | _ => exact ih h hold

/-- The newest write under a key has the greatest number of them all. -/
theorem le_newest {m n k : Nat} {key : String} {log : List Entry} (h : Numbered m log)
    (hnew : newest key log = some n) (hk : .enqueued key k ∈ log) : k ≤ n := by
  induction log generalizing m with
  | nil => cases hk
  | cons e older ih =>
      cases e with
      | enqueued key' j =>
          have hj : j ≤ m ∧ 0 < j ∧ Numbered (j - 1) older := h
          by_cases hkey : key' = key
          · simp only [newest, if_pos hkey, Option.some.injEq] at hnew
            rcases List.mem_cons.mp hk with heq | hold
            · simp only [Entry.enqueued.injEq] at heq
              omega
            · have hle : k ≤ j - 1 := hj.2.2.le hold
              omega
          · simp only [newest, if_neg hkey] at hnew
            rcases List.mem_cons.mp hk with heq | hold
            · simp only [Entry.enqueued.injEq] at heq
              exact absurd heq.1.symm hkey
            · exact ih hj.2.2 hnew hold
      | cancelled key' =>
          have hold : .enqueued key k ∈ older := by simpa using hk
          by_cases hkey : key' = key
          · simp [newest, hkey] at hnew
          · simp only [newest, if_neg hkey] at hnew
            exact ih h hnew hold
      | _ =>
          have hold : .enqueued key k ∈ older := by simpa using hk
          exact ih h hnew hold

/-- What came before a cancel is not the newest write after it. -/
theorem newest_after_cancel {m n : Nat} {key : String} {mid before : List Entry}
    (h : Numbered m (mid ++ .cancelled key :: before))
    (hnew : newest key (mid ++ .cancelled key :: before) = some n) :
    .enqueued key n ∉ before := by
  intro hbefore
  induction mid generalizing m with
  | nil => simp [newest] at hnew
  | cons e mid ih =>
      cases e with
      | enqueued key' j =>
          have hj : j ≤ m ∧ 0 < j ∧ Numbered (j - 1) (mid ++ .cancelled key :: before) := h
          by_cases hkey : key' = key
          · simp only [List.cons_append, newest, if_pos hkey, Option.some.injEq] at hnew
            have hmem : .enqueued key n ∈ mid ++ .cancelled key :: before := by simp [hbefore]
            have hle : n ≤ j - 1 := hj.2.2.le hmem
            omega
          · simp only [List.cons_append, newest, if_neg hkey] at hnew
            exact ih hj.2.2 hnew
      | cancelled key' =>
          by_cases hkey : key' = key
          · simp [newest, hkey] at hnew
          · simp only [List.cons_append, newest, if_neg hkey] at hnew
            exact ih h hnew
      | _ => exact ih h hnew

/-! ## The invariant -/

/-- What holds between two callbacks, and while the timer's callback still has
the retries `due` to start. -/
structure Inv (due : List (String × Retry)) (q : State) : Prop where
  numbered : Numbered q.sequence q.log
  timely : Timely q.log
  current : ∀ key n, q.generation key = some n → newest key q.log = some n
  own : ∀ a ∈ q.running, a.ownGeneration = a.write
  waiting : ∀ key retry n, (key, retry) ∈ q.retries ∨ (key, retry) ∈ due →
    q.generation key = some n → retry.write = n
  /-- A stopped queue keeps nothing for later. -/
  idle : q.stopped = true → q.retries = [] ∧ q.timer = none
  armed : q.retries ≠ [] → q.timer.isSome = true
  kept : q.stopped = false → ∀ key n, wanted key q.log = some n → q.generation key = some n
  alive : q.stopped = false → ∀ key n, q.generation key = some n →
    (∃ a ∈ q.running, a.key = key ∧ a.write = n) ∨
      ∃ retry, ((key, retry) ∈ q.retries ∨ (key, retry) ∈ due) ∧ retry.write = n

theorem initial_inv (options : Options) : Inv [] (.initial options) := by
  constructor <;> simp [State.initial, Numbered, Timely, wanted]

section Steps

variable {q : State} {due : List (String × Retry)} {options : Options}

/-- The newest write under a key may be started. -/
theorem Inv.attempt (h : Inv due q) {key : String} (label : String) {write : Nat}
    (hnew : newest key q.log = some write) : Inv due (q.attempt key label write write) where
  numbered := h.numbered
  timely := by
    refine ⟨?_, h.timely⟩
    intro key' n hruns
    simp only [Entry.runs, Option.some.injEq, Prod.mk.injEq] at hruns
    rw [← hruns.1, ← hruns.2]
    exact hnew
  current := h.current
  own := by
    intro a ha
    rcases List.mem_append.mp ha with hold | hstarted
    · exact h.own a hold
    · rw [List.mem_singleton.mp hstarted]
  waiting := h.waiting
  idle := h.idle
  armed := h.armed
  kept := h.kept
  alive := by
    intro hrun key' n hgen
    rcases h.alive hrun key' n hgen with ⟨a, ha, hkey⟩ | hwait
    · exact Or.inl ⟨a, List.mem_append_left _ ha, hkey⟩
    · exact Or.inr hwait

theorem Inv.enqueue (h : Inv [] q) (key label : String) : Inv [] (q.enqueue key label) := by
  have hlast : Inv []
      { q with
        sequence := q.sequence + 1
        generation := Function.update q.generation key (some (q.sequence + 1))
        retries := remove key q.retries
        log := .enqueued key (q.sequence + 1) :: q.log
        running := q.running ++ [⟨key, label, q.sequence + 1, q.sequence + 1⟩] } := by
    constructor
    · exact ⟨Nat.le_refl _, by omega, h.numbered⟩
    · refine ⟨?_, h.timely⟩
      intro key' n hruns
      cases hruns
    · intro key' n hgen
      by_cases hk : key = key'
      · rw [← hk] at hgen ⊢
        simpa [newest] using hgen
      · have hold : q.generation key' = some n := by
          simpa [Function.update_of_ne (Ne.symm hk)] using hgen
        simpa [newest, hk] using h.current key' n hold
    · intro a ha
      rcases List.mem_append.mp ha with hold | hnew
      · exact h.own a hold
      · rw [List.mem_singleton.mp hnew]
    · intro key' retry n hmem hgen
      rcases hmem with hmem | hmem
      · have hboth := mem_remove.mp hmem
        have hold : q.generation key' = some n := by
          simpa [Function.update_of_ne hboth.2] using hgen
        exact h.waiting key' retry n (Or.inl hboth.1) hold
      · cases hmem
    · intro hstop
      refine ⟨?_, (h.idle hstop).2⟩
      simp [remove, (h.idle hstop).1]
    · intro hne
      apply h.armed
      intro hnil
      exact hne (by simp [remove, hnil])
    · intro hrun key' n hwant
      by_cases hk : key = key'
      · rw [← hk] at hwant ⊢
        simpa [wanted] using hwant
      · have hold : wanted key' q.log = some n := by simpa [wanted, hk] using hwant
        simpa [Function.update_of_ne (Ne.symm hk)] using h.kept hrun key' n hold
    · intro hrun key' n hgen
      by_cases hk : key = key'
      · rw [← hk] at hgen ⊢
        have hn : q.sequence + 1 = n := by simpa using hgen
        exact Or.inl ⟨⟨key, label, q.sequence + 1, q.sequence + 1⟩, by simp, rfl, hn⟩
      · have hold : q.generation key' = some n := by
          simpa [Function.update_of_ne (Ne.symm hk)] using hgen
        rcases h.alive hrun key' n hold with ⟨a, ha, hkey⟩ | ⟨retry, hmem, hwrite⟩
        · exact Or.inl ⟨a, List.mem_append_left _ ha, hkey⟩
        · rcases hmem with hmem | hmem
          · exact Or.inr ⟨retry, Or.inl (mem_remove.mpr ⟨hmem, Ne.symm hk⟩), hwrite⟩
          · cases hmem
  refine { hlast with timely := ⟨?_, hlast.timely⟩ }
  intro key' n hruns
  simp only [Entry.runs, Option.some.injEq, Prod.mk.injEq] at hruns
  simp [newest, hruns.1, hruns.2]

theorem Inv.cancel (h : Inv [] q) (key : String) : Inv [] (q.cancel key) where
  numbered := h.numbered
  timely := by
    refine ⟨?_, h.timely⟩
    intro key' n hruns
    cases hruns
  current := by
    intro key' n hgen
    by_cases hk : key = key'
    · simp [State.cancel, hk] at hgen
    · have hold : q.generation key' = some n := by
        simpa [State.cancel, Function.update_of_ne (Ne.symm hk)] using hgen
      simpa [State.cancel, newest, hk] using h.current key' n hold
  own := h.own
  waiting := by
    intro key' retry n hmem hgen
    rcases hmem with hmem | hmem
    · have hboth := mem_remove.mp hmem
      have hold : q.generation key' = some n := by
        simpa [State.cancel, Function.update_of_ne hboth.2] using hgen
      exact h.waiting key' retry n (Or.inl hboth.1) hold
    · cases hmem
  idle := by
    intro hstop
    refine ⟨?_, (h.idle hstop).2⟩
    simp [State.cancel, remove, (h.idle hstop).1]
  armed := by
    intro hne
    apply h.armed
    intro hnil
    exact hne (by simp [State.cancel, remove, hnil])
  kept := by
    intro hrun key' n hwant
    by_cases hk : key = key'
    · simp [State.cancel, wanted, hk] at hwant
    · have hold : wanted key' q.log = some n := by
        simpa [State.cancel, wanted, hk] using hwant
      simpa [State.cancel, Function.update_of_ne (Ne.symm hk)] using h.kept hrun key' n hold
  alive := by
    intro hrun key' n hgen
    by_cases hk : key = key'
    · simp [State.cancel, hk] at hgen
    · have hold : q.generation key' = some n := by
        simpa [State.cancel, Function.update_of_ne (Ne.symm hk)] using hgen
      rcases h.alive hrun key' n hold with hrunning | ⟨retry, hmem, hwrite⟩
      · exact Or.inl hrunning
      · rcases hmem with hmem | hmem
        · exact Or.inr ⟨retry, Or.inl (mem_remove.mpr ⟨hmem, Ne.symm hk⟩), hwrite⟩
        · cases hmem

theorem Inv.stop (h : Inv [] q) : Inv [] q.stop where
  numbered := h.numbered
  timely := h.timely
  current := h.current
  own := h.own
  waiting := by
    intro key retry n hmem
    rcases hmem with hmem | hmem <;> cases hmem
  idle := fun _ => ⟨rfl, rfl⟩
  armed := fun hne => absurd rfl hne
  kept := by
    intro hrun
    cases hrun
  alive := by
    intro hrun
    cases hrun

/-- Starting what was due leaves nothing due. -/
theorem Inv.retryDue (h : Inv due q) : Inv [] (q.retryDue due) := by
  induction due generalizing q with
  | nil => exact h
  | cons entry due ih =>
      rcases entry with ⟨key, retry⟩
      cases hgen : q.generation key with
      | none =>
          -- the key was cancelled or its write has landed
          simp only [State.retryDue, hgen]
          apply ih
          refine { h with waiting := ?_, alive := ?_ }
          · intro key' retry' n hmem
            exact h.waiting key' retry' n (hmem.imp_right (List.mem_cons_of_mem _))
          · intro hrun key' n hgen'
            rcases h.alive hrun key' n hgen' with hrunning | ⟨retry', hmem, hwrite⟩
            · exact Or.inl hrunning
            · rcases hmem with hmem | hmem
              · exact Or.inr ⟨retry', Or.inl hmem, hwrite⟩
              · rcases List.mem_cons.mp hmem with heq | hmem
                · simp only [Prod.mk.injEq] at heq
                  rw [heq.1, hgen] at hgen'
                  cases hgen'
                · exact Or.inr ⟨retry', Or.inr hmem, hwrite⟩
      | some current =>
          have hsame : retry.write = current :=
            h.waiting key retry current (Or.inr List.mem_cons_self) hgen
          rw [← hsame] at hgen
          have hstart := h.attempt retry.label (h.current key _ hgen)
          simp only [State.retryDue, hgen]
          apply ih
          refine { hstart with waiting := ?_, alive := ?_ }
          · intro key' retry' n hmem
            exact hstart.waiting key' retry' n (hmem.imp_right (List.mem_cons_of_mem _))
          · intro hrun key' n hgen'
            rcases hstart.alive hrun key' n hgen' with hrunning | ⟨retry', hmem, hwrite⟩
            · exact Or.inl hrunning
            · rcases hmem with hmem | hmem
              · exact Or.inr ⟨retry', Or.inl hmem, hwrite⟩
              · rcases List.mem_cons.mp hmem with heq | hmem
                · -- the retry just started is in flight now
                  simp only [Prod.mk.injEq] at heq
                  refine Or.inl ⟨⟨key, retry.label, retry.write, retry.write⟩, ?_, heq.1.symm, ?_⟩
                  · simp [State.attempt]
                  · rw [← hwrite, heq.2]
                · exact Or.inr ⟨retry', Or.inr hmem, hwrite⟩

theorem Inv.timerFires (h : Inv [] q) : Inv [] (q.timerFires options) := by
  apply Inv.retryDue
  refine { h with waiting := ?_, idle := ?_, armed := ?_, alive := ?_ }
  · intro key retry n hmem
    rcases hmem with hmem | hmem
    · cases hmem
    · exact h.waiting key retry n (Or.inl hmem)
  · exact fun _ => ⟨rfl, rfl⟩
  · exact fun hne => absurd rfl hne
  · intro hrun key n hgen
    rcases h.alive hrun key n hgen with hrunning | ⟨retry, hmem, hwrite⟩
    · exact Or.inl hrunning
    · rcases hmem with hmem | hmem
      · exact Or.inr ⟨retry, Or.inr hmem, hwrite⟩
      · cases hmem

/-- What is in flight beside `a` stays in flight when `a` settles. -/
theorem mem_eraseIdx_or {a b : Running} {i : Nat} {running : List Running}
    (ha : running[i]? = some a) (hb : b ∈ running) : b = a ∨ b ∈ running.eraseIdx i := by
  rcases List.mem_iff_getElem?.mp hb with ⟨j, hj⟩
  by_cases hji : j = i
  · rw [hji, ha, Option.some.injEq] at hj
    exact Or.inl hj.symm
  · exact Or.inr (List.mem_eraseIdx_iff_getElem?.mpr ⟨j, hji, hj⟩)

/-- A settled write leaves the others in flight. -/
theorem alive_of_settled (h : Inv [] q) {i : Nat} {a : Running} (ha : q.running[i]? = some a)
    (hrun : q.stopped = false) {key : String} {n : Nat} (hgen : q.generation key = some n)
    (hne : ¬ (a.key = key ∧ a.write = n)) :
    (∃ b ∈ q.running.eraseIdx i, b.key = key ∧ b.write = n) ∨
      ∃ retry, (key, retry) ∈ q.retries ∧ retry.write = n := by
  rcases h.alive hrun key n hgen with ⟨b, hb, hkey⟩ | ⟨retry, hmem, hwrite⟩
  · rcases mem_eraseIdx_or ha hb with heq | hrest
    · rw [heq] at hkey
      exact absurd hkey hne
    · exact Or.inl ⟨b, hrest, hkey⟩
  · rcases hmem with hmem | hmem
    · exact Or.inr ⟨retry, hmem, hwrite⟩
    · cases hmem

/-- Dropping a settled write nobody waits for. -/
theorem Inv.drop (h : Inv [] q) {i : Nat} {a : Running} (ha : q.running[i]? = some a)
    (hgen : q.generation a.key ≠ some a.ownGeneration) :
    Inv [] { q with running := q.running.eraseIdx i } := by
  have hown : a.ownGeneration = a.write := h.own a (List.mem_of_getElem? ha)
  refine { h with own := ?_, alive := ?_ }
  · intro b hb
    exact h.own b (List.mem_of_mem_eraseIdx hb)
  · intro hrun key n hnow
    have hne : ¬ (a.key = key ∧ a.write = n) := by
      rintro ⟨hkey, hwrite⟩
      rw [hown, hwrite, hkey] at hgen
      exact hgen hnow
    rcases alive_of_settled h ha hrun hnow hne with hrunning | ⟨retry, hmem, hwrite⟩
    · exact Or.inl hrunning
    · exact Or.inr ⟨retry, Or.inl hmem, hwrite⟩

/-- Forgetting the generation of a write that has settled. -/
theorem Inv.forget (h : Inv [] q) {i : Nat} {a : Running} (ha : q.running[i]? = some a)
    (failing : List String) (delayMs : Nat) {log : List Entry} (hnum : Numbered q.sequence log) (htimely : Timely log)
    (hnewest : ∀ key, newest key log = newest key q.log)
    (hwanted : q.stopped = false → ∀ key n, wanted key log = some n →
      key ≠ a.key ∧ wanted key q.log = some n) :
    Inv [] { q with
      running := q.running.eraseIdx i
      generation := Function.update q.generation a.key none
      failing
      delayMs
      log } := by
  have hold : ∀ {key n}, Function.update q.generation a.key none key = some n →
      key ≠ a.key ∧ q.generation key = some n := by
    intro key n hnow
    by_cases hk : key = a.key
    · simp [hk] at hnow
    · exact ⟨hk, by simpa [Function.update_of_ne hk] using hnow⟩
  constructor
  · exact hnum
  · exact htimely
  · intro key n hnow
    rw [hnewest]
    exact h.current key n (hold hnow).2
  · intro b hb
    exact h.own b (List.mem_of_mem_eraseIdx hb)
  · intro key retry n hmem hnow
    exact h.waiting key retry n hmem (hold hnow).2
  · exact h.idle
  · exact h.armed
  · intro hrun key n hwant
    have hboth := hwanted hrun key n hwant
    have hgen' := h.kept hrun key n hboth.2
    simpa [Function.update_of_ne hboth.1] using hgen'
  · intro hrun key n hnow
    have hboth := hold hnow
    have hne : ¬ (a.key = key ∧ a.write = n) := fun heq => hboth.1 heq.1.symm
    rcases alive_of_settled h ha hrun hboth.2 hne with hrunning | ⟨retry, hmem, hwrite⟩
    · exact Or.inl hrunning
    · exact Or.inr ⟨retry, Or.inl hmem, hwrite⟩

theorem Inv.lands (h : Inv [] q) {i : Nat} {a : Running} (ha : q.running[i]? = some a) :
    Inv [] (State.lands options { q with running := q.running.eraseIdx i } a) := by
  have hown : a.ownGeneration = a.write := h.own a (List.mem_of_getElem? ha)
  have htimely : Timely (.landed a.key a.write :: q.log) := by
    refine ⟨?_, h.timely⟩
    intro key n hruns
    cases hruns
  by_cases hgen : q.generation a.key = some a.ownGeneration
  · -- the newest write under its key: nothing is wanted there any more
    simp only [State.lands, hgen, ne_eq, not_true_eq_false, if_false]
    refine h.forget ha _ _ h.numbered htimely (fun _ => rfl) ?_
    intro hrun key n hwant
    by_cases hlast : a.key = key ∧ wanted key q.log = some a.write
    · simp [wanted, hlast] at hwant
    · simp only [wanted, if_neg hlast] at hwant
      refine ⟨?_, hwant⟩
      rintro rfl
      have hsame := h.kept hrun _ n hwant
      rw [hgen, hown, Option.some.injEq] at hsame
      rw [← hsame] at hwant
      exact hlast ⟨rfl, hwant⟩
  · -- superseded or cancelled: nothing but the log changes
    simp only [State.lands, ne_eq, hgen, not_false_eq_true, if_true]
    refine { h.drop ha hgen with timely := htimely, kept := ?_ }
    intro hrun key n hwant
    by_cases hlast : a.key = key ∧ wanted key q.log = some a.write
    · simp [wanted, hlast] at hwant
    · simp only [wanted, if_neg hlast] at hwant
      exact h.kept hrun key n hwant

theorem Inv.schedule {waiting : List (String × Retry)}
    (h : Inv [] { q with retries := waiting, timer := some 0 }) (hrun : q.stopped = false) :
    Inv [] (State.schedule { q with retries := waiting }) := by
  have hnot : ¬ q.stopped = true := by simp [hrun]
  unfold State.schedule
  split
  · rename_i hskip
    refine { h with idle := fun hstop => absurd hstop hnot, armed := ?_ }
    intro hne
    simpa [hrun, hne] using hskip
  · exact { h with idle := fun hstop => absurd hstop hnot, armed := fun _ => rfl }

theorem Inv.fails (h : Inv [] q) {i : Nat} {a : Running} (ha : q.running[i]? = some a) :
    Inv [] (State.fails { q with running := q.running.eraseIdx i } a) := by
  have hown : a.ownGeneration = a.write := h.own a (List.mem_of_getElem? ha)
  by_cases hgen : q.generation a.key = some a.ownGeneration
  · by_cases hstop : q.stopped = true
    · -- a stopped queue drops the write
      unfold State.fails
      rw [if_neg (not_not.mpr hgen), if_pos hstop]
      refine h.forget ha _ _ h.numbered h.timely (fun _ => rfl) ?_
      intro hrun
      rw [hstop] at hrun
      cases hrun
    · have hrun : q.stopped = false := by simpa using hstop
      unfold State.fails
      rw [if_neg (not_not.mpr hgen), if_neg hstop]
      have hwrite : q.generation a.key = some a.write := by rw [hgen, hown]
      refine Inv.schedule (q := { q with
        running := q.running.eraseIdx i
        failing := if a.key ∈ q.failing then q.failing else q.failing ++ [a.key]
        log := .requeued a.key a.write :: q.log }) ?_ hrun
      constructor
      · exact h.numbered
      · refine ⟨?_, h.timely⟩
        intro key n hruns
        simp only [Entry.runs, Option.some.injEq, Prod.mk.injEq] at hruns
        rw [← hruns.1, ← hruns.2]
        exact h.current a.key a.write hwrite
      · exact h.current
      · intro b hb
        exact h.own b (List.mem_of_mem_eraseIdx hb)
      · intro key retry n hmem hnow
        rcases hmem with hmem | hmem
        · rcases mem_insert.mp hmem with heq | ⟨hmem, -⟩
          · simp only [Prod.mk.injEq] at heq
            have hsame : some n = some a.write := by rw [← hwrite, ← heq.1, hnow]
            rw [heq.2]
            exact (Option.some.inj hsame).symm
          · exact h.waiting key retry n (Or.inl hmem) hnow
        · cases hmem
      · intro hstop'
        rw [hrun] at hstop'
        cases hstop'
      · intro _
        rfl
      · exact h.kept
      · intro _ key n hnow
        by_cases hk : a.key = key ∧ a.write = n
        · refine Or.inr ⟨⟨a.label, a.write⟩, Or.inl (mem_insert.mpr (Or.inl ?_)), hk.2⟩
          rw [hk.1]
        · rcases alive_of_settled h ha hrun hnow hk with hrunning | ⟨retry, hmem, hretry⟩
          · exact Or.inl hrunning
          · by_cases hkey : key = a.key
            · -- a retry under this key was the write that just failed
              have hsame : some n = some a.write := by rw [← hwrite, ← hkey, hnow]
              exact absurd ⟨hkey.symm, (Option.some.inj hsame).symm⟩ hk
            · exact Or.inr ⟨retry, Or.inl (mem_insert.mpr (Or.inr ⟨hmem, hkey⟩)), hretry⟩
  · simp only [State.fails, ne_eq, hgen, not_false_eq_true, if_true]
    exact h.drop ha hgen

/-- Every callback keeps the invariant. -/
theorem Inv.step (h : Inv [] q) {c : Callback} {q' : State} (hs : step options q c = some q') :
    Inv [] q' := by
  cases c with
  | enqueue key label =>
      rw [← Option.some.inj hs]
      exact h.enqueue key label
  | cancel key =>
      rw [← Option.some.inj hs]
      exact h.cancel key
  | stop =>
      rw [← Option.some.inj hs]
      exact h.stop
  | landed i =>
      rcases Option.map_eq_some_iff.mp hs with ⟨a, ha, heq⟩
      rw [← heq]
      exact h.lands ha
  | failed i =>
      rcases Option.map_eq_some_iff.mp hs with ⟨a, ha, heq⟩
      rw [← heq]
      exact h.fails ha
  | timerFires =>
      simp only [Queue.step] at hs
      split at hs
      · rw [← Option.some.inj hs]
        exact h.timerFires
      · cases hs

theorem Inv.run (h : Inv [] q) {cs : List Callback} {q' : State}
    (hr : run options q cs = some q') : Inv [] q' := by
  induction cs generalizing q with
  | nil =>
      rw [← Option.some.inj hr]
      exact h
  | cons c cs ih =>
      rcases Option.bind_eq_some_iff.mp hr with ⟨next, hs, hrest⟩
      exact ih (h.step hs) hrest

end Steps

/-! ## What the queue promises -/

theorem Timely.at {newer older : List Entry} {e : Entry} (h : Timely (newer ++ e :: older))
    {key : String} {n : Nat} (hruns : e.runs = some (key, n)) : newest key older = some n := by
  induction newer with
  | nil => exact h.1 key n hruns
  | cons x newer ih => exact ih h.2

theorem Numbered.older {m : Nat} {newer older : List Entry} (h : Numbered m (newer ++ older)) :
    Numbered m older := by
  induction newer generalizing m with
  | nil => exact h
  | cons e newer ih =>
      cases e with
      | enqueued key k =>
          have hk : k ≤ m ∧ 0 < k ∧ Numbered (k - 1) (newer ++ older) := h
          exact (ih hk.2.2).mono (by omega)
      | _ => exact ih h

/-- After any run of callbacks: what is started or put back to be retried is the
newest write its key then had; nothing that came before a cancel is; and until
the queue is stopped, the newest write of a key that has neither landed nor been
cancelled is in flight, or waits with the timer armed. -/
theorem queue_safe (options : Options) (cs : List Callback) (q : State)
    (hrun : run options (.initial options) cs = some q) :
    (∀ newer e older key n, q.log = newer ++ e :: older → e.runs = some (key, n) →
      ∀ m, .enqueued key m ∈ older → m ≤ n) ∧
    (∀ newer e mid before key n, q.log = newer ++ e :: (mid ++ .cancelled key :: before) →
      e.runs = some (key, n) → .enqueued key n ∉ before) ∧
    (q.stopped = false → ∀ key n, wanted key q.log = some n →
      (∃ a ∈ q.running, a.key = key ∧ a.write = n) ∨
        (∃ retry, (key, retry) ∈ q.retries ∧ retry.write = n) ∧ q.timer.isSome = true) := by
  have h : Inv [] q := (initial_inv options).run hrun
  refine ⟨?_, ?_, ?_⟩
  · intro newer e older key n hlog hruns m hm
    have htimely := h.timely
    have hnum := h.numbered
    rw [hlog] at htimely hnum
    have hold : Numbered q.sequence ([e] ++ older) := by simpa using hnum.older
    exact le_newest hold.older (htimely.at hruns) hm
  · intro newer e mid before key n hlog hruns
    have htimely := h.timely
    have hnum := h.numbered
    rw [hlog] at htimely hnum
    have hold : Numbered q.sequence ([e] ++ (mid ++ .cancelled key :: before)) := by
      simpa using hnum.older
    exact newest_after_cancel hold.older (htimely.at hruns)
  · intro hrunning key n hwant
    have hgen := h.kept hrunning key n hwant
    rcases h.alive hrunning key n hgen with hfly | ⟨retry, hmem, hwrite⟩
    · exact Or.inl hfly
    · rcases hmem with hmem | hmem
      · exact Or.inr ⟨⟨retry, hmem, hwrite⟩, h.armed (List.ne_nil_of_mem hmem)⟩
      · cases hmem

/-- A write that fails twice, is replaced while its retry waits, and lands. -/
def retriedCallbacks : List Callback :=
  [.enqueue "pin" "sticky-pin", .failed 0, .timerFires, .failed 0, .enqueue "pin" "sticky-pin",
    .enqueue "route" "routing", .failed 0, .cancel "route", .timerFires, .failed 0]

theorem queue_safe_retried :
    ∃ q, run {} (.initial {}) retriedCallbacks = some q ∧
      (q.stopped = false → ∀ key n, wanted key q.log = some n →
        (∃ a ∈ q.running, a.key = key ∧ a.write = n) ∨
          (∃ retry, (key, retry) ∈ q.retries ∧ retry.write = n) ∧ q.timer.isSome = true) := by
  refine ⟨_, rfl, ?_⟩
  exact (queue_safe {} retriedCallbacks _ rfl).2.2

end Sidebar.Queue
