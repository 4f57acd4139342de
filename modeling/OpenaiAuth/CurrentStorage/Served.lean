import OpenaiAuth.CurrentStorage.Reader

/-! # What the shared read answers

The values published come of reads that began one after the other, whatever the order
in which they end. An answer is of the file as it was after the last invalidation
unless the cache was filled by a read that this invalidation found under way, and it
is of the path that was asked for unless a fallback, or a newer read that ended first,
has read another one.
-/

namespace CurrentStorage

variable {T : Type} {s t : System T} {e : Event T} {steps : List (System T × Event T)}

/-! ## What is promised -/

/-- No invalidation between the read of the answer and the call it answers. -/
def Answer.Fresh (invalidations : List ℕ) (a : Answer T) : Prop :=
  ∀ time ∈ invalidations, time < a.asked → time ≤ a.value.began

def Answer.OfItsPath (a : Answer T) : Prop :=
  a.value.source = a.path

/-- A call that the cache answers, with the value of a read which an invalidation has
found under way: it was put there when that read ended, after the cache was cleared. -/
def Refilled (s : System T) : Event T → Prop
  | .read => ∃ cached, s.reader.hit s.path s.stamp = some cached ∧
      ∃ time ∈ s.invalidations, cached.value.began < time
  | _ => False

/-- An answer that another path was read for: from the cache or by itself, where the
read fell back after the path had changed, or that of a newer call which ended first. -/
def Strayed (s : System T) : Event T → Prop
  | .read => ∃ cached, s.reader.hit s.path s.stamp = some cached ∧ cached.value.source ≠ s.path
  | .finished generation _ => ∃ call, s.call generation = some call ∧
      if s.reader.publishedGeneration < call.generation then call.source ≠ call.path
      else ∃ newer, s.reader.publishedValue = some newer ∧ newer.source ≠ call.path
  | _ => False

/-! ## The invariant -/

structure Inv (s : System T) : Prop where
  past : ∀ call ∈ s.waiting, call.asked < s.clock ∧ call.asked ≤ call.began
  numbered : ∀ call ∈ s.waiting, call.generation ≤ s.reader.readGeneration
  generations : s.reader.publishedGeneration ≤ s.reader.readGeneration
  ordered : ∀ call ∈ s.waiting, ∀ other ∈ s.waiting,
    (call.generation ≤ other.generation ↔ call.asked ≤ other.asked)
  overtaken : ∀ call ∈ s.waiting, call.generation ≤ s.reader.publishedGeneration →
    ∃ newer, s.reader.publishedValue = some newer ∧ call.asked ≤ newer.began
  ahead : ∀ call ∈ s.waiting, s.reader.publishedGeneration < call.generation →
    ∀ old ∈ s.handed, old.asked < call.asked
  handed : ∀ old ∈ s.handed, old.asked < s.clock
  increasing : s.handed.Pairwise fun old new => old.asked < new.asked
  answered : ∀ a ∈ s.answers, a.asked < s.clock
  invalidated : ∀ time ∈ s.invalidations, time < s.clock

theorem inv_initial (path : String) (stamps : String → Option StorageFileStamp) :
    Inv (System.initial path stamps : System T) := by
  constructor <;> simp [System.initial]

theorem Inv.tick (inv : Inv s) : Inv s.tick where
  past call h := ⟨Nat.lt_succ_of_lt (inv.past call h).1, (inv.past call h).2⟩
  numbered := inv.numbered
  generations := inv.generations
  ordered := inv.ordered
  overtaken := inv.overtaken
  ahead := inv.ahead
  handed old h := Nat.lt_succ_of_lt (inv.handed old h)
  increasing := inv.increasing
  answered a h := Nat.lt_succ_of_lt (inv.answered a h)
  invalidated time h := Nat.lt_succ_of_lt (inv.invalidated time h)

theorem System.mem_without {call : ReadCall} {generation : ℕ} (h : call ∈ s.without generation) :
    call ∈ s.waiting :=
  List.mem_of_mem_filter h

theorem System.call_mem {call : ReadCall} {generation : ℕ} (h : s.call generation = some call) :
    call ∈ s.waiting ∧ call.generation = generation :=
  ⟨List.mem_of_find?_eq_some h, by simpa using List.find?_some h⟩

/-- A call that is no longer waited for changes nothing else. -/
theorem Inv.rejected (inv : Inv s) (generation : ℕ) :
    Inv { s with waiting := s.without generation } where
  past call h := inv.past call (System.mem_without h)
  numbered call h := inv.numbered call (System.mem_without h)
  generations := inv.generations
  ordered call h other h' := inv.ordered call (System.mem_without h) other (System.mem_without h')
  overtaken call h := inv.overtaken call (System.mem_without h)
  ahead call h := inv.ahead call (System.mem_without h)
  handed := inv.handed
  increasing := inv.increasing
  answered := inv.answered
  invalidated := inv.invalidated

/-- A fallback begins to read later than the call it is for. -/
theorem Inv.fellBack (inv : Inv s) (generation : ℕ) :
    Inv { s.tick with waiting := s.waiting.map (s.fallback generation) } := by
  -- generation and time of the call are what they were
  have same : ∀ call : ReadCall, (s.fallback generation call).generation = call.generation ∧
      (s.fallback generation call).asked = call.asked := by
    intro call
    unfold System.fallback
    split <;> simp
  have tick := inv.tick
  refine ⟨?_, ?_, tick.generations, ?_, ?_, ?_, tick.handed, tick.increasing, tick.answered,
    tick.invalidated⟩
  · simp only [List.forall_mem_map]
    intro call h
    have before := inv.past call h
    refine ⟨by rw [(same call).2]; exact Nat.lt_succ_of_lt before.1, ?_⟩
    unfold System.fallback
    split
    · exact before.1.le
    · exact before.2
  · simp only [List.forall_mem_map]
    intro call h
    rw [(same call).1]
    exact inv.numbered call h
  · simp only [List.forall_mem_map]
    intro call h other h'
    rw [(same call).1, (same call).2, (same other).1, (same other).2]
    exact inv.ordered call h other h'
  · simp only [List.forall_mem_map]
    intro call h
    rw [(same call).1, (same call).2]
    exact inv.overtaken call h
  · simp only [List.forall_mem_map]
    intro call h
    rw [(same call).1, (same call).2]
    exact inv.ahead call h

/-- A call of `read()` has a higher generation than all before it, and comes later. -/
theorem Inv.read (inv : Inv s) : Inv s.read.tick := by
  have tick := inv.tick
  unfold System.read
  cases found : s.reader.hit s.path s.stamp with
  | some cached =>
    refine ⟨tick.past, tick.numbered, tick.generations, tick.ordered, tick.overtaken, tick.ahead,
      tick.handed, tick.increasing, ?_, tick.invalidated⟩
    simp only [System.tick, List.forall_mem_cons]
    exact ⟨Nat.lt_succ_self _, tick.answered⟩
  | none =>
    simp only
    refine ⟨?_, ?_, ?_, ?_, ?_, ?_, tick.handed, tick.increasing, tick.answered,
    tick.invalidated⟩
    · simp only [System.tick, List.forall_mem_cons]
      exact ⟨⟨Nat.lt_succ_self _, le_rfl⟩, tick.past⟩
    · simp only [System.tick, CurrentStorageReader.startRead, List.forall_mem_cons]
      exact ⟨le_rfl, fun call h => Nat.le_succ_of_le (inv.numbered call h)⟩
    · exact Nat.le_succ_of_le inv.generations
    · simp only [System.tick, CurrentStorageReader.startRead, List.forall_mem_cons]
      refine ⟨⟨by simp, ?_⟩, ?_⟩
      · intro other h
        have := inv.numbered other h
        have := (inv.past other h).1
        omega
      · intro call h
        have := inv.numbered call h
        have := (inv.past call h).1
        exact ⟨by omega, inv.ordered call h⟩
    · simp only [System.tick, CurrentStorageReader.startRead, List.forall_mem_cons]
      refine ⟨?_, inv.overtaken⟩
      intro h
      have := inv.generations
      omega
    · simp only [System.tick, CurrentStorageReader.startRead, List.forall_mem_cons]
      exact ⟨fun _ => inv.handed, inv.ahead⟩

/-- A read that ends is published if it is newer than what is published; whatever then
still waits with a lower generation was also asked for earlier. -/
theorem Inv.finish (inv : Inv s) {generation : ℕ} {call : ReadCall}
    (found : s.call generation = some call) (contents : T) : Inv (s.finish call contents).tick := by
  obtain ⟨waits, -⟩ := System.call_mem found
  have left := (inv.rejected call.generation).tick
  have past := inv.past call waits
  have answered : ∀ a ∈ (s.finish call contents).tick.answers, a.asked < s.clock + 1 := by
    simp only [System.finish, System.tick, List.forall_mem_cons]
    exact ⟨Nat.lt_succ_of_lt past.1, left.answered⟩
  by_cases newest : s.reader.publishedGeneration < call.generation
  · have reader : s.reader.publish call.generation call.path call.stamp
        ⟨call.source, call.began, contents⟩ = _ := if_pos newest
    refine ⟨left.past, ?_, ?_, left.ordered, ?_, ?_, ?_, ?_, answered, left.invalidated⟩
    · simp only [System.finish, System.tick, reader]
      exact left.numbered
    · simp only [System.finish, System.tick, reader]
      exact inv.numbered call waits
    · simp only [System.finish, System.tick, reader, Option.some.injEq, exists_eq_left']
      intro other h lower
      exact ((inv.ordered other (System.mem_without h) call waits).mp lower).trans past.2
    · simp only [System.finish, System.tick, reader, if_pos newest, List.forall_mem_append,
        List.forall_mem_singleton]
      intro other h higher
      have later := inv.ordered other (System.mem_without h) call waits
      exact ⟨left.ahead other h (newest.trans higher), by omega⟩
    · simp only [System.finish, System.tick, if_pos newest, List.forall_mem_append,
        List.forall_mem_singleton]
      exact ⟨left.handed, Nat.lt_succ_of_lt past.1⟩
    · simp only [System.finish, System.tick, if_pos newest, List.pairwise_append]
      refine ⟨inv.increasing, List.pairwise_singleton _ _, ?_⟩
      intro old h new h'
      rw [List.mem_singleton] at h'
      subst h'
      exact inv.ahead new waits newest old h
  · have reader : s.reader.publish call.generation call.path call.stamp
        ⟨call.source, call.began, contents⟩ = s.reader := if_neg newest
    refine ⟨left.past, ?_, ?_, left.ordered, ?_, ?_, ?_, ?_, answered, left.invalidated⟩
    all_goals simp only [System.finish, System.tick, reader, if_neg newest]
    · exact left.numbered
    · exact left.generations
    · exact left.overtaken
    · exact left.ahead
    · exact left.handed
    · exact left.increasing

theorem Inv.step (inv : Inv s) (h : s.step e = some t) : Inv t := by
  cases e with
  | pathChanged path =>
    cases h
    exact { inv.tick with }
  | written path stamp =>
    cases h
    exact { inv.tick with }
  | read =>
    cases h
    exact inv.read
  | invalidate =>
    cases h
    refine { inv.tick with invalidated := ?_ }
    simp only [System.tick, List.forall_mem_cons]
    exact ⟨Nat.lt_succ_self _, inv.tick.invalidated⟩
  | fellBack generation =>
    simp only [System.step] at h
    split at h
    · split at h
      · cases h
      · cases h
        exact inv.fellBack generation
    · cases h
  | finished generation contents =>
    obtain ⟨call, found, rfl⟩ := Option.map_eq_some_iff.mp h
    exact inv.finish found contents
  | rejected generation =>
    obtain ⟨call, found, rfl⟩ := Option.map_eq_some_iff.mp h
    exact (inv.rejected generation).tick

theorem Run.inv (run : Run steps s) : Inv s := by
  induction run with
  | start path stamps => exact inv_initial path stamps
  | step _ h ih => exact ih.step h

/-! ## The answers -/

/-- A read that ends answers its own call with what it read itself, or with what a
newer one has read since: neither began before the call. -/
theorem Inv.result_began (inv : Inv s) {call : ReadCall} (waits : call ∈ s.waiting)
    (contents : T) :
    call.asked ≤ (s.reader.result call.generation ⟨call.source, call.began, contents⟩).began := by
  unfold CurrentStorageReader.result
  split
  · exact (inv.past call waits).2
  · rename_i older
    obtain ⟨newer, published, began⟩ := inv.overtaken call waits (not_lt.mp older)
    rw [published]
    exact began

theorem Inv.result_source (inv : Inv s) {call : ReadCall} (waits : call ∈ s.waiting)
    (contents : T) :
    (s.reader.result call.generation ⟨call.source, call.began, contents⟩).source = call.path ↔
      ¬ if s.reader.publishedGeneration < call.generation then call.source ≠ call.path
        else ∃ newer, s.reader.publishedValue = some newer ∧ newer.source ≠ call.path := by
  unfold CurrentStorageReader.result
  split
  · simp
  · rename_i older
    obtain ⟨newer, published, -⟩ := inv.overtaken call waits (not_lt.mp older)
    simp [published]

/-- The time of the step is later than every call answered before it. -/
theorem Inv.fresh_later (inv : Inv s) :
    (∀ a ∈ s.answers, a.Fresh (s.clock :: s.invalidations)) ↔
      ∀ a ∈ s.answers, a.Fresh s.invalidations := by
  refine forall₂_congr fun a h => ?_
  have := inv.answered a h
  unfold Answer.Fresh
  rw [List.forall_mem_cons]
  exact and_iff_right fun later => absurd later (by omega)

theorem Inv.fresh_step (inv : Inv s) (h : s.step e = some t) :
    (∀ a ∈ t.answers, a.Fresh t.invalidations) ↔
      (∀ a ∈ s.answers, a.Fresh s.invalidations) ∧ ¬ Refilled s e := by
  cases e with
  | pathChanged path =>
    cases h
    simp [System.tick, Refilled]
  | written path stamp =>
    cases h
    simp [System.tick, Refilled]
  | read =>
    cases h
    unfold System.read Refilled
    cases found : s.reader.hit s.path s.stamp with
    | none => simp [System.tick]
    | some cached =>
      simp only [System.tick, List.forall_mem_cons, Option.some.injEq, exists_eq_left']
      rw [and_comm]
      refine and_congr_right fun _ => ?_
      -- every invalidation so far comes before this call
      simp only [Answer.Fresh, not_exists, not_and, not_lt]
      exact forall₂_congr fun time done => forall_prop_of_true (inv.invalidated time done)
  | invalidate =>
    cases h
    simp only [Refilled, not_false_eq_true, and_true]
    exact inv.fresh_later
  | fellBack generation =>
    simp only [System.step] at h
    split at h
    · split at h
      · cases h
      · cases h
        simp [System.tick, Refilled]
    · cases h
  | finished generation contents =>
    obtain ⟨call, found, rfl⟩ := Option.map_eq_some_iff.mp h
    simp only [System.finish, System.tick, Refilled, List.forall_mem_cons, not_false_eq_true,
      and_true]
    refine and_iff_right fun time _ before => ?_
    exact before.le.trans (inv.result_began (System.call_mem found).1 contents)
  | rejected generation =>
    obtain ⟨call, found, rfl⟩ := Option.map_eq_some_iff.mp h
    simp [System.tick, Refilled]

theorem Inv.path_step (inv : Inv s) (h : s.step e = some t) :
    (∀ a ∈ t.answers, a.OfItsPath) ↔ (∀ a ∈ s.answers, a.OfItsPath) ∧ ¬ Strayed s e := by
  cases e with
  | pathChanged path =>
    cases h
    simp [System.tick, Strayed]
  | written path stamp =>
    cases h
    simp [System.tick, Strayed]
  | read =>
    cases h
    unfold System.read Strayed
    cases found : s.reader.hit s.path s.stamp with
    | none => simp [System.tick]
    | some cached =>
      simp only [System.tick, List.forall_mem_cons, Option.some.injEq, exists_eq_left', ne_eq,
        not_not]
      exact and_comm
  | invalidate =>
    cases h
    simp [System.tick, Strayed]
  | fellBack generation =>
    simp only [System.step] at h
    split at h
    · split at h
      · cases h
      · cases h
        simp [System.tick, Strayed]
    · cases h
  | finished generation contents =>
    obtain ⟨call, found, rfl⟩ := Option.map_eq_some_iff.mp h
    simp only [System.finish, System.tick, Strayed, found, List.forall_mem_cons,
      Option.some.injEq, exists_eq_left']
    rw [and_comm]
    exact and_congr_right fun _ => inv.result_source (System.call_mem found).1 contents
  | rejected generation =>
    obtain ⟨call, found, rfl⟩ := Option.map_eq_some_iff.mp h
    simp [System.tick, Strayed]

end CurrentStorage
