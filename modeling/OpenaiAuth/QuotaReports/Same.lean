import OpenaiAuth.QuotaReports.Kept

/-! # The same windows over each transport

`Tells` is what a report of any transport says of a slot: a used percent, a length and a
reset time, or that the window is retired. Reports that tell the same leave the same
windows known.

Main result: `quota_reports`.
-/

namespace QuotaReports

open Sidebar Request Js

variable {coercions : Coercions} {now : ℚ} {report : Report} {slot : Slot}

/-! ## Contents -/

/-- A time in epoch seconds or milliseconds, or a date. -/
inductive ResetTime where
  | epoch (n : ℚ)
  | date (text : String)
deriving DecidableEq, Repr

inductive Content where
  | retired
  | window (usedPercent windowMinutes : ℚ) (resetsAt : ResetTime)
deriving DecidableEq, Repr

/-- The value writes the time. -/
def ResetTime.WrittenBy (coercions : Coercions) (raw : Option Value) : ResetTime → Prop
  | epoch n => blank raw = false ∧ numberOf coercions raw = .finite n
  | date text => text ≠ "" ∧ raw = some (.string text) ∧
      (numberOf coercions raw).finite? = none

def ResetTime.iso (coercions : Coercions) : ResetTime → Option String
  | epoch n => coercions.isoOfTime (if n < 100000000000 then n * 1000 else n)
  | date text => coercions.isoOfValue (.string text)

/-- The member that has the reset time of a slot. -/
def Report.resetValue (slot : Slot) (report : Report) : Option Value :=
  match report with
  | .headers h => (h (slot.header ++ "-reset-at")).map .string
  | _ => Value.get? "reset_at" (report.slotValue slot)

/-- The length of a slot's window, in the units of the transport. -/
def Report.lengthValue (slot : Slot) (report : Report) : Option Value :=
  match report with
  | .headers h => headerValue (h (slot.header ++ "-window-minutes"))
  | _ => Value.get? report.lengthKey (report.slotValue slot)

/-- What a report says of a slot. A retired slot is marked so, or left out of a report that
is complete. -/
def Tells (coercions : Coercions) (report : Report) (slot : Slot) : Content → Prop
  | .retired => report.retired coercions slot = true ∨
      (report.complete coercions = true ∧ report.absent slot = true)
  | .window usedPercent windowMinutes resetsAt =>
      report.usedPercent coercions slot = some usedPercent ∧ 0 < windowMinutes ∧
        numberOf coercions (report.lengthValue slot) = .finite (windowMinutes * report.perMinute) ∧
        resetsAt.WrittenBy coercions (report.resetValue slot)

/-- The window that is known of what is said. -/
def Content.known (coercions : Coercions) (now : ℚ) : Content → Option QuotaWindow
  | retired => none
  | window usedPercent windowMinutes resetsAt =>
      some (QuotaReports.window usedPercent (resetsAt.iso coercions) (some windowMinutes) now)

theorem toResetIso_eq {raw : Option Value} {time : ResetTime}
    (h : time.WrittenBy coercions raw) : toResetIso coercions raw = time.iso coercions := by
  cases time with
  | epoch n =>
    obtain ⟨hblank, hnumber⟩ := h
    simp [toResetIso, hblank, hnumber, Number.finite?, ResetTime.iso]
  | date text =>
    obtain ⟨hempty, rfl, hnumber⟩ := h
    have hblank : blank (some (.string text)) = false := decide_eq_false hempty
    simp [toResetIso, hblank, hnumber, ResetTime.iso]

/-- A window with a length is not retired. -/
theorem retired_of_length {minutes : ℚ} (hpositive : 0 < minutes)
    (hlength : numberOf coercions (report.lengthValue slot) = .finite (minutes * report.perMinute))
    (hminutes : positiveFinite coercions (report.lengthValue slot) = some (minutes * report.perMinute)) :
    report.retired coercions slot = false := by
  unfold Report.retired
  cases report with
  | headers h =>
    simp only
    by_cases hzero : h (slot.header ++ "-window-minutes") = some "0"
    · -- a length that is written `0` is not positive
      have hvalue : Report.lengthValue slot (.headers h) = some (.string "0") := by
        unfold Report.lengthValue headerValue
        simp only [hzero, Option.map_some, Option.getD_some]
      rw [hvalue] at hlength
      have hnumber := Number.finite.inj (coercions.number_zero.symm.trans hlength)
      have hone : minutes * Report.perMinute (.headers h) = minutes := mul_one minutes
      rw [hone] at hnumber
      exact absurd hnumber hpositive.ne
    · simp [hzero]
  | frame event | usage json =>
    simp only
    have hvalue : positiveFinite coercions (Value.get? (Report.lengthKey _) (Report.slotValue slot _)) =
      some _ := hminutes
    rw [hvalue, Option.isNone_some, Bool.false_and, Bool.and_false]

theorem windowMinutes_of_length {minutes : ℚ}
    (hminutes : positiveFinite coercions (report.lengthValue slot) = some (minutes * report.perMinute))
    (hper : 0 < report.perMinute) : report.windowMinutes coercions slot = some minutes := by
  unfold Report.windowMinutes
  cases report with
  | headers h => exact hminutes.trans (congrArg some (mul_one minutes))
  | frame event | usage json =>
    simp only
    have hvalue : positiveFinite coercions (Value.get? (Report.lengthKey _) (Report.slotValue slot _)) =
      some _ := hminutes
    rw [hvalue, Option.map_some, mul_div_cancel_right₀ _ hper.ne']

theorem decoded_of_tells {content : Content} (h : Tells coercions report slot content) :
    report.decoded coercions now slot = content.known coercions now := by
  cases content with
  | retired =>
    refine Report.decoded_eq_none.mpr ?_
    rcases h with hretired | ⟨-, habsent⟩
    · exact .inr (.inr hretired)
    · exact .inl habsent
  | window usedPercent windowMinutes resetsAt =>
    obtain ⟨hused, hpositive, hlength, hreset⟩ := h
    have hper : 0 < report.perMinute := by
      cases report <;> simp [Report.perMinute]
    have hminutes : positiveFinite coercions (report.lengthValue slot) =
        some (windowMinutes * report.perMinute) := by
      unfold positiveFinite
      rw [hlength]
      exact Option.filter_eq_some_iff.mpr ⟨rfl, decide_eq_true (mul_pos hpositive hper)⟩
    have hresetsAt : report.resetsAt coercions slot = resetsAt.iso coercions := by
      rw [← toResetIso_eq hreset]
      cases report <;> rfl
    unfold Report.decoded
    rw [hused, Option.bind_some, retired_of_length hpositive hlength hminutes, hresetsAt,
      windowMinutes_of_length hminutes hper]
    rfl

theorem Tells.not_malformed {content : Content} (h : Tells coercions report slot content) :
    report.malformed coercions slot = false := by
  rw [← Bool.not_eq_true]
  intro hmalformed
  cases content with
  | retired =>
    rcases h with hretired | ⟨-, habsent⟩
    · rw [malformed_not_retired hmalformed] at hretired
      cases hretired
    · rw [malformed_not_absent hmalformed] at habsent
      cases habsent
  | window usedPercent windowMinutes resetsAt =>
    unfold Report.malformed at hmalformed
    rw [h.1, Option.isNone_some, Bool.and_false] at hmalformed
    cases hmalformed

theorem Tells.complete_or {content : Content} (h : Tells coercions report slot content) :
    report.complete coercions = true ∨ (report.usedPercent coercions slot).isSome = true := by
  cases content with
  | retired =>
    rcases h with hretired | ⟨hcomplete, -⟩
    · unfold Report.retired at hretired
      rw [Bool.and_eq_true, decide_eq_true_eq] at hretired
      rw [hretired.1]
      exact .inr rfl
    · exact .inl hcomplete
  | window usedPercent windowMinutes resetsAt =>
    rw [h.1]
    exact .inr rfl

/-- A report that says something of each slot is complete. -/
theorem complete_of_tells {content : Slot → Content} (h : ∀ slot, Tells coercions report slot (content slot)) :
    report.complete coercions = true := by
  rcases (h .primary).complete_or with hcomplete | hused
  · exact hcomplete
  have hpresent : report.absent .primary = false := by
    rw [← Bool.not_eq_true]
    intro habsent
    rw [Report.usedPercent_of_absent habsent] at hused
    cases hused
  cases report with
  | frame event => rfl
  | usage json =>
    cases json with
    | null => cases hpresent
    | _ => rfl
  | headers headers =>
    -- the slot is valid, and no slot is invalid
    have hvalid : usedPercentHeaderState coercions headers Slot.primary.header = .valid := by
      rw [Report.usedPercentHeaderState_eq, hpresent, (h .primary).not_malformed]
      rfl
    have hinvalid : HeaderState.invalid ∉ headerStates coercions headers := by
      intro hmem
      obtain ⟨slot, hslot⟩ := Report.state_mem_iff.mp hmem
      have := Report.invalid_iff.mp hslot
      rw [(h slot).not_malformed] at this
      cases this
    unfold Report.complete isCompleteQuotaHeaderFrame
    rw [Bool.and_eq_true, decide_eq_true_eq, decide_eq_true_eq]
    exact ⟨Report.state_mem_iff.mpr ⟨.primary, hvalid⟩, hinvalid⟩

/-! ## Every report -/

/-- A window goes only with an absent or a retired slot, if and only if no slot that is
known is malformed in a frame or a usage poll that is recorded; and the same contents
leave the same windows over every transport. -/
theorem quota_reports {M : Type} (coercions : Coercions) (tokenFingerprint : String → String)
    (identityOfToken : String → Option String) {pool : PoolMerge M} (lawful : pool.Lawful) :
    (∀ (manager : Quota.QuotaManager) (currentMainIdentity : Option String) (report : Report)
        (origin : Origin) (now : ℚ),
      Keeps coercions report (known manager origin.fallback)
          (known (record tokenFingerprint identityOfToken coercions currentMainIdentity report
            origin now manager) origin.fallback) ↔
        ¬ (Accepted identityOfToken currentMainIdentity report origin = true ∧
          Spoils coercions report (known manager origin.fallback))) ∧
    (∀ (map : M) (report : Report) (now : ℚ), pool.takes map now →
      (Keeps coercions report (pool.window map)
          (pool.window (recordInPool pool coercions report now map)) ↔
        ¬ Spoils coercions report (pool.window map))) ∧
    ∀ (content : Slot → Content) (report : Report) (now : ℚ),
      (∀ slot, Tells coercions report slot (content slot)) →
      (∀ (manager : Quota.QuotaManager) (currentMainIdentity : Option String) (origin : Origin),
        Accepted identityOfToken currentMainIdentity report origin = true → ∀ slot,
          known (record tokenFingerprint identityOfToken coercions currentMainIdentity report
            origin now manager) origin.fallback slot = (content slot).known coercions now) ∧
      ∀ map : M, pool.takes map now → ∀ slot,
        pool.window (recordInPool pool coercions report now map) slot =
          (readingFor slot ((content slot).known coercions now)).map fun reading =>
            ⟨reading, now⟩ := by
  refine ⟨?_, ?_, ?_⟩
  · intro manager currentMainIdentity report origin now
    refine keeps_iff now fun slot => ?_
    rw [known_record]
    split <;> rfl
  · intro map report now takes
    have hkeeps : Keeps coercions report (pool.window map)
        (pool.window (recordInPool pool coercions report now map)) ↔
          ¬ (true = true ∧ Spoils coercions report (pool.window map)) := by
      refine keeps_iff now fun slot => ?_
      rw [window_recordInPool lawful takes, Bool.true_and]
      split
      · rw [Option.map_eq_none_iff, readingFor_eq_none]
      · rfl
    exact hkeeps.trans (not_congr (and_iff_right rfl))
  · intro content report now told
    have hcomplete := complete_of_tells told
    refine ⟨?_, ?_⟩
    · intro manager currentMainIdentity origin haccepted slot
      rw [known_record, haccepted, hcomplete, Bool.and_self, if_pos rfl, decoded_of_tells (told slot)]
    · intro map takes slot
      rw [window_recordInPool lawful takes, if_pos hcomplete, decoded_of_tells (told slot)]

section Instances

/-- A map that takes every observation. -/
private def plainPool : PoolMerge (Slot → Option PoolWindow) where
  window map := map
  mergeQuotaObservation map observation := some fun slot =>
    match observation.readings.find? fun reading => reading.label = slot with
    | some reading => some ⟨reading, observation.checkedAt⟩
    | none => if slot ∈ observation.coverage then none else map slot
  takes _ _ := True

private theorem plainPool_lawful : plainPool.Lawful := fun _ _ _ => ⟨_, rfl, fun _ => rfl⟩

private def plainCoercions : Coercions where
  number value :=
    match value with
    | .string "0" => .finite 0
    | _ => .nan
  number_zero := rfl
  isoOfTime _ := some "1970-01-01T00:00:00.000Z"
  isoOfValue _ := none

/-- A primary window of which 150 percent are used. -/
private def overfull : Report :=
  .frame (.object [("type", .string "codex.rate_limits"),
    ("rate_limits", .object [("primary", .object [("used_percent", .number (.finite 150)),
      ("window_minutes", .number (.finite 300))])])])

private def spent : Quota.QuotaManager where
  main := some (entryOf { primary := some (window 100 none none 0) } 0)

/-- A frame with a malformed slot takes the window of an account that is used up. -/
theorem quota_reports_spoiled :
    ¬ ∀ (coercions : Coercions) (manager : Quota.QuotaManager) (currentMainIdentity : Option String)
        (report : Report) (origin : Origin) (now : ℚ),
      Keeps coercions report (known manager origin.fallback)
        (known (record id (fun _ => none) coercions currentMainIdentity report origin now manager)
          origin.fallback) := by
  intro h
  rcases h plainCoercions spent none overfull { accessToken := "tok" } 1 .primary rfl rfl with
    ⟨-, habsent⟩ | hretired
  · cases habsent
  · exact absurd hretired (by decide)

/-- A frame with a primary window of which half is used, and no secondary one. -/
private def halfUsed : Report :=
  .frame (.object [("type", .string "codex.rate_limits"),
    ("rate_limits", .object [("primary", .object [("used_percent", .number (.finite 50)),
      ("window_minutes", .number (.finite 300)), ("reset_at", .number (.finite 1000))])])])

private def halfUsedContent : Slot → Content
  | .primary => .window 50 300 (.epoch 1000)
  | .secondary => .retired

theorem quota_reports_plain :
    plainPool.window (recordInPool plainPool plainCoercions halfUsed 7 fun _ => none) .primary =
      some ⟨⟨.primary, 50, some "1970-01-01T00:00:00.000Z", some 300⟩, 7⟩ := by
  have told : ∀ slot, Tells plainCoercions halfUsed slot (halfUsedContent slot) := by
    intro slot
    cases slot with
    | primary =>
        have minutes : numberOf plainCoercions (halfUsed.lengthValue .primary) = .finite 300 := rfl
        refine ⟨by decide, by decide, ?_, by decide, rfl⟩
        rw [minutes, show halfUsed.perMinute = 1 from rfl, mul_one]
    | secondary => exact .inr ⟨by decide, by decide⟩
  exact ((quota_reports plainCoercions id (fun _ => none) plainPool_lawful).2.2 halfUsedContent
    halfUsed 7 told).2 (fun _ => none) trivial .primary

end Instances

end QuotaReports
