import OpenaiAuth.QuotaReports.Record

/-! # Which windows a report takes away

What is known of a slot after a report is what the report decodes it to, so a window goes
where its slot is absent, retired or malformed. Malformed headers make the whole frame
incomplete and leave the cache as it is; a malformed slot of a frame or of a usage poll
does not.
-/

namespace QuotaReports

open Sidebar Request Js

variable {coercions : Coercions} {now : ℚ} {report : Report} {slot : Slot}

/-! ## Decoded slots -/

namespace Report

def resetsAt (coercions : Coercions) (slot : Slot) (report : Report) : Option String :=
  match report with
  | headers h => toResetIso coercions ((h (slot.header ++ "-reset-at")).map .string)
  | _ => toResetIso coercions (Value.get? "reset_at" (report.slotValue slot))

def windowMinutes (coercions : Coercions) (slot : Slot) (report : Report) : Option ℚ :=
  match report with
  | headers h => positiveFinite coercions (headerValue (h (slot.header ++ "-window-minutes")))
  | _ => (positiveFinite coercions (Value.get? report.lengthKey (report.slotValue slot))).map
      (· / report.perMinute)

/-- The window a slot is decoded to. -/
def decoded (coercions : Coercions) (now : ℚ) (slot : Slot) (report : Report) :
    Option QuotaWindow :=
  (report.usedPercent coercions slot).bind fun used =>
    if report.retired coercions slot then none
    else some (window used (report.resetsAt coercions slot) (report.windowMinutes coercions slot) now)

theorem usedPercent_of_absent (h : report.absent slot = true) :
    report.usedPercent coercions slot = none := by
  cases report with
  | headers h' =>
    unfold usedPercent
    simp only [absent, Option.isNone_iff_eq_none] at h
    simp only [h, Option.bind_none]
  | frame event | usage event =>
    unfold usedPercent absent at *
    simp only [Bool.not_eq_true'] at h
    revert h
    generalize slotValue slot _ = w
    intro h
    unfold Value.given at h
    split at h <;> first | rfl | cases h

theorem decoded_eq_none : report.decoded coercions now slot = none ↔
    report.absent slot = true ∨ report.malformed coercions slot = true ∨
      report.retired coercions slot = true := by
  unfold decoded malformed
  cases habsent : report.absent slot with
  | true => simp [usedPercent_of_absent habsent]
  | false =>
    cases hused : report.usedPercent coercions slot with
    | none => simp
    | some used => simp

theorem windowFromFields_eq {w : Option Value} {key : String} {perMinute : ℚ} :
    windowFromFields coercions key perMinute w now =
      (percent (Value.finite? (Value.get? "used_percent" w))).bind fun used =>
        if used = 0 && (positiveFinite coercions (Value.get? key w)).isNone &&
            (toResetIso coercions (Value.get? "reset_at" w)).isNone then none
        else some (window used (toResetIso coercions (Value.get? "reset_at" w))
          ((positiveFinite coercions (Value.get? key w)).map (· / perMinute)) now) := by
  unfold windowFromFields
  split
  · rename_i hfalse
    -- what is not truthy is no object, and has no used percent
    have hnone : Value.get? "used_percent" w = none := by
      unfold Value.get?
      split
      · simp [Value.truthy] at hfalse
      · rfl
    rw [hnone]
    rfl
  · rfl

theorem windowFromHeader_eq {h : Headers} :
    windowFromHeader coercions h slot.header now = (headers h).decoded coercions now slot := by
  unfold windowFromHeader decoded retired usedPercent resetsAt windowMinutes
  simp only
  rcases Option.eq_none_or_eq_some (h (slot.header ++ "-used-percent")) with hraw | ⟨raw, hraw⟩
  · simp [hraw]
  · by_cases hblank : isBlank raw = true
    · simp [hraw, hblank]
    · rcases Option.eq_none_or_eq_some (percent (headerNumber coercions raw)) with hused | ⟨used, hused⟩
      · simp [hraw, hblank, hused]
      · simp [hraw, hblank, hused, Bool.and_assoc]

theorem usedPercentHeaderState_eq {h : Headers} :
    usedPercentHeaderState coercions h slot.header =
      if (headers h).absent slot then .absent
      else if (headers h).malformed coercions slot then .invalid else .valid := by
  unfold usedPercentHeaderState malformed usedPercent absent
  simp only
  rcases Option.eq_none_or_eq_some (h (slot.header ++ "-used-percent")) with hraw | ⟨raw, hraw⟩
  · simp [hraw]
  · by_cases hblank : isBlank raw = true
    · simp [hraw, hblank]
    · rcases Option.eq_none_or_eq_some (percent (headerNumber coercions raw)) with hused | ⟨used, hused⟩
      · simp [hraw, hblank, hused]
      · simp [hraw, hblank, hused]

theorem usedPercent_json (hjson : report.isJson = true) : report.usedPercent coercions slot =
    percent (Value.finite? (Value.get? "used_percent" (report.slotValue slot))) := by
  cases report with
  | headers h => cases hjson
  | frame event | usage event => rfl

theorem decoded_fields (report : Report) (slot : Slot) (hjson : report.isJson = true) :
    windowFromFields coercions report.lengthKey report.perMinute (report.slotValue slot) now =
      report.decoded coercions now slot := by
  rw [windowFromFields_eq, ← usedPercent_json hjson]
  unfold decoded
  rcases Option.eq_none_or_eq_some (report.usedPercent coercions slot) with hused | ⟨used, hused⟩
  · rw [hused, Option.bind_none, Option.bind_none]
  · cases report with
    | headers h => cases hjson
    | frame event | usage event =>
      simp [hused, retired, resetsAt, windowMinutes, Bool.and_assoc]

/-- What a frame or a usage poll says of a slot is what it is decoded to. -/
theorem snapshot_json (report : Report) (hjson : report.isJson = true) {snapshot : Snapshot}
    (h : report.snapshot coercions now = some snapshot) :
    slot.of snapshot.toAccountQuota = report.decoded coercions now slot := by
  cases report with
  | headers h' => cases hjson
  | frame event =>
    cases h
    cases slot
    · exact decoded_fields (frame event) .primary rfl
    · exact decoded_fields (frame event) .secondary rfl
  | usage json =>
    unfold Report.snapshot normalizeWham at h
    simp only at h
    split at h
    · cases h
    · cases h
      cases slot
      · exact decoded_fields (usage json) .primary rfl
      · exact decoded_fields (usage json) .secondary rfl

/-- Headers with a malformed slot are decoded to nothing. -/
theorem snapshot_malformed {h : Headers} (hbad : (headers h).malformed coercions slot = true) :
    normalizeQuotaHeaders coercions h now = {} := by
  have hstate : usedPercentHeaderState coercions h slot.header = .invalid := by
    have habsent : (headers h).absent slot = false := by
      unfold malformed at hbad
      simp only [Bool.and_eq_true, Bool.not_eq_true'] at hbad
      exact hbad.1
    rw [usedPercentHeaderState_eq, habsent, hbad]
    rfl
  unfold normalizeQuotaHeaders
  rw [if_pos]
  cases slot <;> simp [headerStates, hstate]

theorem state_mem_iff {h : Headers} {state : HeaderState} :
    state ∈ headerStates coercions h ↔
      ∃ slot : Slot, usedPercentHeaderState coercions h slot.header = state := by
  unfold headerStates
  constructor
  · intro hmem
    obtain ⟨slot, -, hslot⟩ := List.mem_map.mp hmem
    exact ⟨slot, hslot⟩
  · rintro ⟨slot, hslot⟩
    refine List.mem_map.mpr ⟨slot, ?_, hslot⟩
    cases slot <;> simp

theorem invalid_iff {h : Headers} : usedPercentHeaderState coercions h slot.header = .invalid ↔
    (headers h).malformed coercions slot = true := by
  rw [usedPercentHeaderState_eq]
  unfold malformed
  cases (headers h).absent slot <;> cases (usedPercent coercions slot (headers h)).isNone <;> simp

theorem snapshot_headers {h : Headers} (hgood : ∀ slot, (headers h).malformed coercions slot = false) :
    slot.of (normalizeQuotaHeaders coercions h now).toAccountQuota =
      (headers h).decoded coercions now slot := by
  have hvalid : HeaderState.invalid ∉ headerStates coercions h := by
    intro hmem
    obtain ⟨slot, hslot⟩ := state_mem_iff.mp hmem
    have := invalid_iff.mp hslot
    rw [hgood slot] at this
    cases this
  unfold normalizeQuotaHeaders
  rw [if_neg hvalid]
  cases slot <;> exact windowFromHeader_eq

/-- A complete set of headers has no malformed slot. -/
theorem complete_good {h : Headers} (hcomplete : (headers h).complete coercions = true) (slot : Slot) :
    (headers h).malformed coercions slot = false := by
  unfold complete isCompleteQuotaHeaderFrame at hcomplete
  simp only [Bool.and_eq_true, decide_eq_true_eq] at hcomplete
  rw [← Bool.not_eq_true, ← invalid_iff]
  exact fun hinvalid => hcomplete.2 (state_mem_iff.mpr ⟨slot, hinvalid⟩)

/-- Headers that are not complete carry no window. -/
theorem snapshot_incomplete {h : Headers} (hcomplete : (headers h).complete coercions = false) :
    slot.of (normalizeQuotaHeaders coercions h now).toAccountQuota = none := by
  by_cases hbad : ∃ other, (headers h).malformed coercions other = true
  · obtain ⟨other, hother⟩ := hbad
    rw [snapshot_malformed hother]
    cases slot <;> rfl
  · have hgood : ∀ other, (headers h).malformed coercions other = false := fun other =>
      Bool.not_eq_true _ ▸ fun hother => hbad ⟨other, hother⟩
    rw [snapshot_headers hgood, decoded_eq_none]
    -- no slot is valid, so each is absent
    by_contra hpresent
    rw [not_or] at hpresent
    have hvalid : usedPercentHeaderState coercions h slot.header = .valid := by
      rw [usedPercentHeaderState_eq, if_neg hpresent.1, hgood slot]
      rfl
    have hinvalid : HeaderState.invalid ∉ headerStates coercions h := by
      intro hmem
      obtain ⟨other, hother⟩ := state_mem_iff.mp hmem
      exact hbad ⟨other, invalid_iff.mp hother⟩
    unfold complete isCompleteQuotaHeaderFrame at hcomplete
    simp [state_mem_iff.mpr ⟨slot, hvalid⟩, hinvalid] at hcomplete

theorem complete_json (now : ℚ) (hjson : report.isJson = true) :
    report.complete coercions = (report.snapshot coercions now).isSome := by
  cases report with
  | headers h => cases hjson
  | frame event => rfl
  | usage json => cases json <;> rfl

end Report

/-! ## What the cache knows -/

section Cache

variable {tokenFingerprint : String → String} {identityOfToken : String → Option String}
  {manager : Quota.QuotaManager} {currentMainIdentity : Option String} {origin : Origin}

theorem main_setMain (accessToken : String) (entry : Quota.QuotaEntry) (accountId : Option String)
    (completeSnapshot : Bool) :
    (manager.setMain tokenFingerprint accessToken entry accountId completeSnapshot).main =
      if completeSnapshot || Quota.hasAnyQuotaWindow entry.quota then some entry
      else manager.main := by
  unfold Quota.QuotaManager.setMain
  cases completeSnapshot <;> cases Quota.hasAnyQuotaWindow entry.quota <;>
    simp only [Bool.not_true, Bool.not_false, Bool.and_true, Bool.and_false, Bool.or_true,
      Bool.or_false, Bool.false_eq_true, if_true, if_false]
  all_goals first | rfl | (split <;> rfl)

theorem fallbacks_setFallback (accountId : String) (entry : Quota.QuotaEntry)
    (accessToken : Option String) (completeSnapshot : Bool) (identity : Option String) :
    ((manager.setFallback tokenFingerprint accountId entry accessToken completeSnapshot
      identity).fallbacks.get accountId).map (·.quota) =
      if completeSnapshot || Quota.hasAnyQuotaWindow entry.quota then some entry.quota
      else (manager.fallbacks.get accountId).map (·.quota) := by
  unfold Quota.QuotaManager.setFallback
  cases completeSnapshot <;> cases Quota.hasAnyQuotaWindow entry.quota <;>
    simp only [Bool.not_true, Bool.not_false, Bool.and_true, Bool.and_false, Bool.or_true,
      Bool.or_false, Bool.false_eq_true, if_true, if_false]
  all_goals
    split <;> simp [Quota.QuotaManager.clearRateLimited]

theorem known_main : known manager none slot = (manager.main.map (·.quota)).bind slot.of := by
  unfold known
  rw [Option.bind_map]
  rfl

theorem known_fallback (accountId : String) : known manager (some accountId) slot =
    ((manager.fallbacks.get accountId).map (·.quota)).bind slot.of := by
  unfold known
  rw [Option.bind_map]
  rfl

theorem of_mergePushedQuotaMetadata (incoming : Snapshot) (previous : Option AccountQuota) :
    slot.of (mergePushedQuotaMetadata incoming previous).toAccountQuota =
      slot.of incoming.toAccountQuota := by
  cases previous <;> cases slot <;> rfl

theorem hasAny_iff (quota : AccountQuota) : Quota.hasAnyQuotaWindow quota = true ↔
    ∃ slot : Slot, (slot.of quota).isSome = true := by
  unfold Quota.hasAnyQuotaWindow
  constructor
  · intro h
    rcases Bool.or_eq_true _ _ ▸ h with h | h
    · exact ⟨.primary, h⟩
    · exact ⟨.secondary, h⟩
  · rintro ⟨slot, h⟩
    cases slot <;> simp_all [Slot.of]

theorem known_storeReading (quota : AccountQuota) : known (storeReading tokenFingerprint manager quota
    origin now) origin.fallback slot = slot.of quota := by
  unfold storeReading
  cases origin.fallback with
  | none =>
    simp only [known_main, main_setMain, Bool.true_or, if_true]
    rfl
  | some accountId =>
    simp only [known_fallback, fallbacks_setFallback, Bool.true_or, if_true]
    rfl

theorem known_recordPushedQuota (snapshot : Snapshot) (completeSnapshot : Bool) :
    known (recordPushedQuota tokenFingerprint identityOfToken manager currentMainIdentity snapshot
      origin completeSnapshot now) origin.fallback slot =
      if (origin.fallback.isSome ||
          !differentIdentity (origin.mainIdentity identityOfToken) currentMainIdentity) &&
          (completeSnapshot || Quota.hasAnyQuotaWindow snapshot.toAccountQuota) then
        slot.of snapshot.toAccountQuota
      else known manager origin.fallback slot := by
  have hany (previous : Option AccountQuota) :
      Quota.hasAnyQuotaWindow (mergePushedQuotaMetadata snapshot previous).toAccountQuota =
        Quota.hasAnyQuotaWindow snapshot.toAccountQuota := by
    cases previous <;> rfl
  unfold recordPushedQuota
  split
  · rename_i hempty
    simp only [Bool.and_eq_true, Bool.not_eq_true', Snapshot.isEmpty, decide_eq_true_eq] at hempty
    rw [hempty.1, hempty.2, if_neg]
    simp [Quota.hasAnyQuotaWindow]
  · cases hfallback : origin.fallback with
    | none =>
      simp only [Option.isSome_none, Bool.false_or]
      split
      · rename_i hstale
        rw [hstale]
        rfl
      · rename_i hcurrent
        simp only [known_main, main_setMain, entryOf, hany, hcurrent, Bool.not_false, Bool.true_and]
        split
        · exact of_mergePushedQuotaMetadata snapshot _
        · rfl
    | some accountId =>
      simp only [known_fallback, fallbacks_setFallback, entryOf, hany, Option.isSome_some,
        Bool.true_or, Bool.true_and]
      split
      · exact of_mergePushedQuotaMetadata snapshot _
      · rfl

theorem known_record : known (record tokenFingerprint identityOfToken coercions currentMainIdentity
    report origin now manager) origin.fallback slot =
      if Accepted identityOfToken currentMainIdentity report origin && report.complete coercions then
        report.decoded coercions now slot
      else known manager origin.fallback slot := by
  cases report with
  | headers h =>
    simp only [record, Report.snapshot, known_recordPushedQuota, Accepted]
    by_cases hcomplete : (Report.headers h).complete coercions = true
    · simp only [hcomplete, Bool.true_or, Bool.and_true]
      rw [Report.snapshot_headers (Report.complete_good hcomplete)]
    · rw [Bool.not_eq_true] at hcomplete
      have hnone : Quota.hasAnyQuotaWindow (normalizeQuotaHeaders coercions h now).toAccountQuota =
          false := by
        rw [← Bool.not_eq_true, hasAny_iff]
        rintro ⟨slot, hslot⟩
        rw [Report.snapshot_incomplete hcomplete] at hslot
        cases hslot
      simp [hnone, hcomplete]
  | frame event =>
    simp only [record, Report.snapshot, known_recordPushedQuota, Accepted,
      Report.complete, Bool.true_or, Bool.and_true]
    rw [Report.snapshot_json (.frame event) rfl rfl]
  | usage json =>
    rw [Report.complete_json now rfl]
    unfold record
    cases hsnapshot : Report.snapshot coercions now (.usage json) with
    | none => simp
    | some snapshot =>
      simp only [known_storeReading, Accepted, Option.isSome_some, Bool.and_self, if_true]
      exact Report.snapshot_json (.usage json) rfl hsnapshot

end Cache

/-! ## What the pool knows -/

section Pool

variable {M : Type} {pool : PoolMerge M} {map : M}

/-- What an observation of a complete snapshot reads of a slot. -/
theorem find_readings (quota : AccountQuota) :
    ([Slot.primary, Slot.secondary].filterMap fun label => readingFor label (label.of quota)).find?
        (fun reading => reading.label = slot) = readingFor slot (slot.of quota) := by
  have hlabel : ∀ (label : Slot) (reading : ObservedReading),
      readingFor label (label.of quota) = some reading → reading.label = label := by
    intro label reading h
    unfold readingFor at h
    obtain ⟨window, -, h⟩ := Option.bind_eq_some_iff.mp h
    obtain ⟨used, -, rfl⟩ := Option.map_eq_some_iff.mp h
    rfl
  rcases Option.eq_none_or_eq_some (readingFor .primary (Slot.primary.of quota)) with hp | ⟨p, hp⟩ <;>
  rcases Option.eq_none_or_eq_some (readingFor .secondary (Slot.secondary.of quota)) with hs | ⟨r, hs⟩
  all_goals
    cases slot <;> simp [hp, hs, List.find?_cons]
  all_goals
    first
    | simp [hlabel _ _ hp, hlabel _ _ hs]
    | simp [hlabel _ _ hp]
    | simp [hlabel _ _ hs]

/-- Nothing is observed only where nothing is read and nothing covered. -/
theorem window_recordSnapshot (lawful : pool.Lawful) (takes : pool.takes map now)
    (quota : AccountQuota) (complete : Bool) :
    pool.window (recordSnapshot pool map quota complete now) slot =
      match readingFor slot (slot.of quota) with
      | some reading => some ⟨reading, now⟩
      | none => if complete then none else pool.window map slot := by
  unfold recordSnapshot
  cases hobserved : observationFromSnapshot quota now complete with
  | none =>
    unfold observationFromSnapshot at hobserved
    simp only at hobserved
    split at hobserved
    · rename_i hempty
      simp only [Bool.and_eq_true, List.isEmpty_iff] at hempty
      have hreading : readingFor slot (slot.of quota) = none := by
        rw [← find_readings, hempty.1.1.1.1]
        rfl
      have hpartial : complete = false := by
        by_contra hcomplete
        have : slot ∈ [Slot.primary, Slot.secondary].filter fun label =>
            complete && (readingFor label (label.of quota)).isNone := by
          refine List.mem_filter.mpr ⟨by cases slot <;> simp, ?_⟩
          rw [Bool.not_eq_false] at hcomplete
          rw [hcomplete, hreading]
          rfl
        rw [hempty.1.1.1.2] at this
        cases this
      rw [hreading, hpartial]
      rfl
    · cases hobserved
  | some observation =>
    unfold observationFromSnapshot at hobserved
    simp only at hobserved
    split at hobserved
    · cases hobserved
    · have hat : observation.checkedAt = now := by
        cases hobserved
        rfl
      obtain ⟨merged, hmerged, hwindow⟩ := lawful map observation (hat ▸ takes)
      cases hobserved
      unfold PoolMerge.mergePoolObservation
      simp only [hmerged, Option.getD_some, hwindow slot, find_readings]
      cases hreading : readingFor slot (slot.of quota) with
      | some reading => rfl
      | none =>
        have : slot ∈ ([Slot.primary, Slot.secondary].filter fun label =>
            complete && (readingFor label (label.of quota)).isNone) ↔ complete = true := by
          rw [List.mem_filter, hreading]
          cases slot <;> simp
        simp only [this]

theorem window_recordInPool (lawful : pool.Lawful) (takes : pool.takes map now) :
    pool.window (recordInPool pool coercions report now map) slot =
      if report.complete coercions then
        (readingFor slot (report.decoded coercions now slot)).map fun reading => ⟨reading, now⟩
      else pool.window map slot := by
  unfold recordInPool
  cases report with
  | headers h =>
    simp only [Report.snapshot, window_recordSnapshot lawful takes]
    by_cases hcomplete : (Report.headers h).complete coercions = true
    · rw [Report.snapshot_headers (Report.complete_good hcomplete), if_pos hcomplete, if_pos hcomplete]
      cases readingFor slot (Report.decoded coercions now slot (Report.headers h)) <;> rfl
    · rw [if_neg hcomplete, if_neg hcomplete,
        Report.snapshot_incomplete (Bool.not_eq_true _ ▸ hcomplete)]
      rfl
  | frame event =>
    rw [Report.complete_json now rfl]
    simp only [Report.snapshot, window_recordSnapshot lawful takes, Option.isSome_some, if_true]
    rw [Report.snapshot_json (.frame event) rfl rfl]
    cases readingFor slot (Report.decoded coercions now slot (Report.frame event)) <;> rfl
  | usage json =>
    rw [Report.complete_json now rfl]
    cases hsnapshot : Report.snapshot coercions now (.usage json) with
    | none => rfl
    | some snapshot =>
      simp only [window_recordSnapshot lawful takes, if_true, Option.isSome_some]
      rw [Report.snapshot_json (.usage json) rfl hsnapshot]
      cases readingFor slot (Report.decoded coercions now slot (Report.usage json)) <;> rfl

theorem usedPercent_range {used : ℚ} (h : report.usedPercent coercions slot = some used) :
    percent (some used) = some used := by
  have hpercent : ∀ n, percent n = some used → percent (some used) = some used := by
    intro n hn
    unfold percent at hn ⊢
    obtain ⟨-, hrange⟩ := Option.filter_eq_some_iff.mp hn
    exact Option.filter_eq_some_iff.mpr ⟨rfl, hrange⟩
  cases report with
  | headers h' =>
    simp only [Report.usedPercent] at h
    obtain ⟨raw, -, h⟩ := Option.bind_eq_some_iff.mp h
    split at h
    · cases h
    · exact hpercent _ h
  | frame event | usage json => exact hpercent _ h

/-- A window that is decoded is read into the pool. -/
theorem readingFor_eq_none : readingFor slot (report.decoded coercions now slot) = none ↔
    report.decoded coercions now slot = none := by
  unfold Report.decoded
  rcases Option.eq_none_or_eq_some (report.usedPercent coercions slot) with hused | ⟨used, hused⟩
  · simp [hused, readingFor]
  · cases report.retired coercions slot <;>
      simp [hused, readingFor, window, usedPercent_range hused]

end Pool

/-! ## What is taken away -/

/-- A window goes only with an absent slot of a complete report or with a retired one. -/
def Keeps {W : Type} (coercions : Coercions) (report : Report) (before after : Slot → Option W) :
    Prop :=
  ∀ slot, (before slot).isSome = true → after slot = none →
    (report.complete coercions = true ∧ report.absent slot = true) ∨
      report.retired coercions slot = true

/-- A slot that is known has a malformed value in a frame or a usage poll. -/
def Spoils {W : Type} (coercions : Coercions) (report : Report) (before : Slot → Option W) : Prop :=
  report.isJson = true ∧
    ∃ slot, (before slot).isSome = true ∧ report.malformed coercions slot = true

theorem malformed_not_absent (h : report.malformed coercions slot = true) :
    report.absent slot = false := by
  unfold Report.malformed at h
  simp only [Bool.and_eq_true, Bool.not_eq_true'] at h
  exact h.1

theorem malformed_not_retired (h : report.malformed coercions slot = true) :
    report.retired coercions slot = false := by
  unfold Report.malformed at h
  simp only [Bool.and_eq_true, Option.isNone_iff_eq_none] at h
  unfold Report.retired
  rw [h.2]
  rfl

theorem keeps_iff {W : Type} (now : ℚ) {before after : Slot → Option W} {accepted : Bool}
    (hafter : ∀ slot, after slot = none ↔
      if accepted && report.complete coercions then report.decoded coercions now slot = none
      else before slot = none) :
    Keeps coercions report before after ↔ ¬ (accepted = true ∧ Spoils coercions report before) := by
  constructor
  · rintro keeps ⟨haccepted, hjson, slot, hbefore, hmalformed⟩
    have hcomplete : report.complete coercions = true := by
      cases report with
      | headers h => cases hjson
      | frame event => rfl
      | usage json =>
        cases json with
        | null => cases slot <;> cases hmalformed
        | _ => rfl
    have hgone : after slot = none := by
      rw [hafter, haccepted, hcomplete]
      exact Report.decoded_eq_none.mpr (.inr (.inl hmalformed))
    rcases keeps slot hbefore hgone with ⟨-, habsent⟩ | hretired
    · rw [malformed_not_absent hmalformed] at habsent
      cases habsent
    · rw [malformed_not_retired hmalformed] at hretired
      cases hretired
  · intro clean slot hbefore hgone
    rw [hafter] at hgone
    split at hgone
    · rename_i hrecorded
      rw [Bool.and_eq_true] at hrecorded
      obtain ⟨haccepted, hcomplete⟩ := hrecorded
      rcases Report.decoded_eq_none.mp hgone with habsent | hmalformed | hretired
      · exact .inl ⟨hcomplete, habsent⟩
      · -- complete headers have no malformed slot, and the others are excluded
        cases report with
        | headers h =>
          rw [Report.complete_good hcomplete] at hmalformed
          cases hmalformed
        | frame event | usage json => exact absurd ⟨haccepted, rfl, slot, hbefore, hmalformed⟩ clean
      · exact .inr hretired
    · rw [hgone] at hbefore
      cases hbefore

end QuotaReports
