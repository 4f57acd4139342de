import OpenaiAuth.VaultRouting.Stream

/-! # Failures that are seen

A line of an event stream ends with CR LF, LF or CR. A complete line tells of a failure
when it is an `event` field with the value `error`, or a data line whose JSON does.

Main results: `vault_routing_stream`, and `noticed_of_plain`, that JSON without escapes is
never overlooked.
-/

namespace VaultRouting

open Js Js.Utf8 Js.Parse

/-! ## Lines with any ending -/

def eventLines : Units → List Units × Units
  | [] => ([], [])
  | 13 :: 10 :: rest =>
      let more := eventLines rest
      ([] :: more.1, more.2)
  | c :: rest =>
      let more := eventLines rest
      if c = 10 ∨ c = 13 then ([] :: more.1, more.2)
      else
        match more.1 with
        | [] => ([], c :: more.2)
        | line :: lines => ((c :: line) :: lines, more.2)

/-- An `event` field with the value `error`; one space after the colon is not part of it. -/
def isErrorEvent (line : Units) : Bool :=
  line = Units.of "event:error" || line = Units.of "event: error"

/-- A complete line of the body tells of a failure. -/
def TellsFailure (body : Bytes) : Prop :=
  ∃ line ∈ (eventLines (textOf body)).1, isErrorEvent line = true ∨ dataFailed line = true

/-- A line that a line feed ends, or the rest of the body, is found to have failed, or the
rest is too long. -/
def Noticed (body : Bytes) : Prop :=
  linesFailed body = true ∨ lineFailed (lastLine body) = true ∨
    maxPending < (unfinished body).length

/-! ## JSON without escapes -/

theorem infix_of_drop {line part : Units} {n : ℕ} (h : part <:+: line.drop n) : part <:+: line :=
  h.trans (List.drop_suffix n line).isInfix

/-- A key with a string, spelled without escapes, is found by the expression for it. -/
theorem hasMember_of_text {key value start white white' rest : Units}
    (hwhite : ∀ c ∈ white, isWhite c = true) (hwhite' : ∀ c ∈ white', isWhite c = true) :
    hasMember (34 :: (key ++ [34])) (34 :: (value ++ [34])) (start ++ 34 :: (key ++ 34 ::
      (white ++ 58 :: (white' ++ 34 :: (value ++ 34 :: rest))))) = true := by
  rw [hasMember, List.any_eq_true]
  refine ⟨34 :: (key ++ 34 :: (white ++ 58 :: (white' ++ 34 :: (value ++ 34 :: rest)))), ?_, ?_⟩
  · rw [List.mem_tails]
    exact List.suffix_append start _
  · have hkey : 34 :: (key ++ 34 :: (white ++ 58 :: (white' ++ 34 :: (value ++ 34 :: rest)))) =
        34 :: (key ++ [34]) ++ (white ++ 58 :: (white' ++ 34 :: (value ++ 34 :: rest))) := by simp
    have hvalue : 34 :: (value ++ 34 :: rest) = 34 :: (value ++ [34]) ++ rest := by simp
    unfold memberAt
    rw [hkey, List.drop_left, dropWhile_white hwhite (by decide), Bool.and_eq_true,
      List.isPrefixOf_iff_prefix]
    refine ⟨List.prefix_append _ _, ?_⟩
    simp only
    rw [dropWhile_white hwhite' (by decide), hvalue, List.isPrefixOf_iff_prefix]
    exact List.prefix_append _ _

/-- A member that the text spells without escapes: its value is there in quotes, and the
expression for the pair finds it. -/
theorem found_of_spelled {text : Units} {tokens : List Token} (hlexed : Lexed text tokens)
    (hplain : 92 ∉ text) {key value : Units} (h : Spelled tokens key (.string value)) :
    34 :: (value ++ [34]) <:+: text ∧
      hasMember (34 :: (key ++ [34])) (34 :: (value ++ [34])) text = true := by
  obtain ⟨body, body', hdecode, hdecode', hinside⟩ := h.byText _ rfl
  obtain ⟨start, white, white', rest, hwhite, hwhite', heq⟩ := hlexed.keyAndText hinside
  have hbody : 92 ∉ body := fun hmem => hplain (by rw [heq]; simp [hmem])
  have hbody' : 92 ∉ body' := fun hmem => hplain (by rw [heq]; simp [hmem])
  rw [decodeString_plain hbody hdecode, decodeString_plain hbody' hdecode', heq]
  refine ⟨⟨start ++ 34 :: (body ++ 34 :: (white ++ 58 :: white')), rest, by simp⟩, ?_⟩
  exact hasMember_of_text hwhite hwhite'

theorem hasMember_of_drop {key value line : Units} {n : ℕ}
    (h : hasMember key value (line.drop n) = true) : hasMember key value line = true := by
  unfold hasMember at h ⊢
  obtain ⟨tail, htail, hmember⟩ := List.any_eq_true.mp h
  refine List.any_eq_true.mpr ⟨tail, ?_, hmember⟩
  rw [List.mem_tails] at htail ⊢
  exact htail.trans (List.drop_suffix n line)

theorem get?_of_hasText {text : String} {value : Option Value} (h : hasText text value = true) :
    value = some (.string (Units.of text)) := by
  unfold hasText at h
  split at h
  · rw [of_decide_eq_true h]
  · cases h

/-- The filter lets every data line through whose JSON tells of a failure without escapes. -/
theorem mayFail_of_plain {line : Units} (hplain : 92 ∉ line) (h : dataFailed line = true) :
    vaultRoutingStreamMayFail line = true := by
  unfold dataFailed at h
  rw [Bool.and_eq_true] at h
  obtain ⟨event, hparse, hfailed⟩ := (Option.any_eq_true _ _).mp h.2
  obtain ⟨tokens, hlexed, hbacked⟩ := backed_of_parse hparse
  have hrest : 92 ∉ line.drop 5 := fun hmem => hplain (List.mem_of_mem_drop hmem)
  unfold vaultRoutingStreamFailed at hfailed
  rw [Bool.and_eq_true, Bool.or_eq_true, Bool.or_eq_true] at hfailed
  unfold vaultRoutingStreamMayFail
  rcases hfailed.2 with (herror | hresponse) | hstatus
  · obtain ⟨hquoted, hmember⟩ :=
      found_of_spelled hlexed hrest (hbacked.get? (get?_of_hasText herror)).1
    have hincludes : line.includes (Units.of "\"error\"") = true :=
      Units.includes_of_infix (infix_of_drop hquoted)
    have hmember : hasMember (Units.of "\"type\"") (Units.of "\"error\"") line = true :=
      hasMember_of_drop hmember
    rw [hincludes, hmember]
    simp
  · obtain ⟨hquoted, -⟩ :=
      found_of_spelled hlexed hrest (hbacked.get? (get?_of_hasText hresponse)).1
    have hincludes : line.includes (Units.of "\"response.failed\"") = true :=
      Units.includes_of_infix (infix_of_drop hquoted)
    rw [hincludes]
    simp
  · obtain ⟨response, hget, hstatus⟩ := (Option.any_eq_true _ _).mp hstatus
    rw [Bool.and_eq_true] at hstatus
    obtain ⟨hquoted, hmember⟩ := found_of_spelled hlexed hrest
      ((hbacked.get? hget).2.get? (get?_of_hasText hstatus.2)).1
    have hincludes : line.includes (Units.of "\"failed\"") = true :=
      Units.includes_of_infix (infix_of_drop hquoted)
    have hmember : hasMember (Units.of "\"status\"") (Units.of "\"failed\"") line = true :=
      hasMember_of_drop hmember
    rw [hincludes, hmember]
    simp

theorem isErrorField_of_event {line : Units} (h : isErrorEvent line = true) :
    isErrorField line = true := by
  unfold isErrorEvent at h
  rcases Bool.or_eq_true _ _ ▸ h with h | h
  · rw [of_decide_eq_true h]
    decide
  · rw [of_decide_eq_true h]
    decide

/-- A line that a line feed ends is noticed when it tells of a failure without escapes. -/
theorem noticed_of_plain {body : Bytes} {line : Units} (hline : line ∈ (takeLines (textOf body)).1)
    (hplain : 92 ∉ line) (h : isErrorEvent line = true ∨ dataFailed line = true) : Noticed body := by
  refine .inl (List.any_eq_true.mpr ⟨line, hline, ?_⟩)
  unfold lineFailed
  rcases h with hevent | hdata
  · rw [isErrorField_of_event hevent, Bool.true_or]
  · rw [mayFail_of_plain hplain hdata, hdata, Bool.and_self, Bool.or_true]

theorem noticed_of_plain_failed :
    Noticed (encode (Units.of "data: \x7b\"type\":\"response.failed\"\x7d\n")) := by
  have hline : Units.of "data: \x7b\"type\":\"response.failed\"\x7d" ∈ (takeLines (textOf
      (encode (Units.of "data: \x7b\"type\":\"response.failed\"\x7d\n")))).1 := by
    decide +kernel
  exact noticed_of_plain hline (by decide +kernel) (.inr (by decide +kernel))

/-! ## Every body -/

theorem unreported_iff (chunks : List Bytes) :
    outcome chunks = .unreported ↔ (observe chunks).2 = true := by
  unfold outcome
  cases (observe chunks).2 <;> simp

/-- The chunks cut the body only where it is cut when it comes in two. -/
theorem cut_of_prefix {body part : Bytes} (h : part <+: body)
    (hlong : maxPending < (unfinished part).length) :
    ∃ chunks, chunks.flatten = body ∧ Cut chunks := by
  obtain ⟨rest, rfl⟩ := h
  refine ⟨[part, rest], by simp, [part], ⟨[rest], rfl⟩, ?_⟩
  rw [List.flatten_singleton]
  exact hlong

theorem prefix_of_cut {chunks : List Bytes} (h : Cut chunks) :
    ∃ part, part <+: chunks.flatten ∧ maxPending < (unfinished part).length := by
  obtain ⟨done, ⟨rest, rfl⟩, hlong⟩ := h
  refine ⟨done.flatten, ?_, hlong⟩
  rw [List.flatten_append]
  exact List.prefix_append _ _

/-- What is noticed is noticed under all chunks. -/
theorem failed_of_noticed {chunks : List Bytes} (h : Noticed chunks.flatten) :
    (observe chunks).2 = true := by
  rw [failed_iff]
  rcases h with hline | hrest | hlong
  · exact .inr (.inl hline)
  · exact .inr (.inr hrest)
  · exact .inl ⟨chunks, List.prefix_rfl, hlong⟩

theorem noticed_of_whole {body : Bytes} (h : (observe [body]).2 = true) : Noticed body := by
  have hflatten : [body].flatten = body := List.flatten_singleton
  rw [failed_iff, hflatten] at h
  rcases h with ⟨done, hdone, hlong⟩ | hline | hrest
  · rcases List.prefix_concat_iff.mp (show done <+: [] ++ [body] from hdone) with rfl | hnil
    · exact .inr (.inr (by simpa using hlong))
    · rw [List.prefix_nil.mp hnil] at hlong
      exact absurd hlong (by decide)
  · exact .inl hline
  · exact .inr (.inl hrest)

/-- The bytes pass as they came. The outcome is the same for all chunks and no body that
tells of a failure is reported as served, if and only if the body is noticed, or tells of
none and has no part that ends in a line that is too long. -/
theorem vault_routing_stream (body : Bytes) :
    (∀ chunks, chunks.flatten = body → (observe chunks).1 = chunks) ∧
      (((∀ chunks chunks', chunks.flatten = body → chunks'.flatten = body →
            outcome chunks = outcome chunks') ∧
          (TellsFailure body → ∀ chunks, chunks.flatten = body → outcome chunks ≠ .served)) ↔
        Noticed body ∨ (¬ TellsFailure body ∧
          ∀ part, part <+: body → (unfinished part).length ≤ maxPending)) := by
  refine ⟨fun chunks _ => (observed_after chunks).2, ?_, ?_⟩
  · rintro ⟨same, told⟩
    by_cases hnoticed : Noticed body
    · exact .inl hnoticed
    · have hwhole : [body].flatten = body := List.flatten_singleton
      have hserved : outcome [body] = .served := by
        cases houtcome : outcome [body] with
        | served => rfl
        | unreported => exact absurd (noticed_of_whole ((unreported_iff _).mp houtcome)) hnoticed
      refine .inr ⟨fun htells => told htells [body] hwhole hserved, ?_⟩
      intro part hpart
      by_contra hlong
      obtain ⟨chunks, hchunks, hcut⟩ := cut_of_prefix hpart (not_le.mp hlong)
      have hfailed := (unreported_iff chunks).mpr ((failed_iff chunks).mpr (.inl hcut))
      rw [same chunks [body] hchunks hwhole, hserved] at hfailed
      cases hfailed
  · rintro (hnoticed | ⟨hclean, hshort⟩)
    · have hfailed : ∀ chunks, chunks.flatten = body → outcome chunks = .unreported := by
        rintro chunks rfl
        exact (unreported_iff chunks).mpr (failed_of_noticed hnoticed)
      refine ⟨?_, ?_⟩
      · intro chunks chunks' hchunks hchunks'
        rw [hfailed chunks hchunks, hfailed chunks' hchunks']
      · intro _ chunks hchunks hserved
        rw [hfailed chunks hchunks] at hserved
        cases hserved
    · refine ⟨?_, fun htells => absurd htells hclean⟩
      intro chunks chunks' hchunks hchunks'
      -- no chunks are cut, so the body alone decides
      have hdecided : ∀ chunks, chunks.flatten = body → ((observe chunks).2 = true ↔
          linesFailed body = true ∨ lineFailed (lastLine body) = true) := by
        rintro chunks rfl
        rw [failed_iff, or_iff_right]
        intro hcut
        obtain ⟨part, hpart, hlong⟩ := prefix_of_cut hcut
        exact absurd (hshort part hpart) (not_le.mpr hlong)
      have hsame : (observe chunks).2 = (observe chunks').2 :=
        Bool.eq_iff_iff.mpr ((hdecided chunks hchunks).trans (hdecided chunks' hchunks').symm)
      unfold outcome
      rw [hsame]

/-- An error event whose type is spelled with an escape. -/
private def escapedBody : Bytes :=
  Units.of "data: \x7b\"type\":\"err\\u006fr\"\x7d\n\n"

/-- A failure that the JSON spells with an escape is reported as served. -/
theorem vault_routing_stream_escaped :
    ¬ ∀ body : Bytes, TellsFailure body → ∀ chunks, chunks.flatten = body →
      outcome chunks ≠ .served := by
  intro h
  have htells : TellsFailure escapedBody :=
    ⟨Units.of "data: \x7b\"type\":\"err\\u006fr\"\x7d", by decide +kernel, .inr (by decide +kernel)⟩
  exact h escapedBody htells [escapedBody] List.flatten_singleton (by decide +kernel)

end VaultRouting
