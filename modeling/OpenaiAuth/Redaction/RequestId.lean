import OpenaiAuth.Js.Nesting
import OpenaiAuth.Redaction.Literals

/-! # The request id of a body

`requestIdFromBody`: a string is taken from the parsed body, a number from its text. The
text is scanned token by token, with the depth and three flags, beside the parser.

Main results:

* `matchAll_spell`: the expression finds the tokens of a text, but for the keywords;
* `tracks_move`: the scan keeps up with the parser in the outermost object;
* `requestIdFromBody_last`: the id is the last one of the outermost object, a number as
  the text spells it.
-/

namespace Redaction

open Js Js.Parse

/-! ## The scan -/

def requestIdKey : Units := Units.of "request_id"

/-- The string, the number or the mark that a text begins with. -/
def markAt (text : Units) : Option Units :=
  let string := if text.head? = some 34 then (literalBody text.tail).map (34 :: ·) else none
  let mark := (text.head?.filter fun c => c ∈ [123, 125, 91, 93, 58, 44]).map fun c => [c]
  string.or (((numberAt text).map NumberFields.text).or mark)

/-- `skip` units of a token are still to be passed. -/
def matchAll : Nat → Units → List Units
  | _, [] => []
  | skip + 1, _ :: rest => matchAll skip rest
  | 0, c :: rest =>
      match markAt (c :: rest) with
      | some token => token :: matchAll (token.length - 1) rest
      | none => matchAll 0 rest

structure Scan where
  depth : Int
  key : Option Units
  atKey : Bool
  atValue : Bool
  requestId : Option Units
deriving DecidableEq, Repr

def Scan.start : Scan :=
  { depth := 0, key := none, atKey := true, atValue := false, requestId := none }

/-- `JSON.parse(token) as string`; `none` where it throws. -/
def parseKey (token : Units) : Option Units :=
  match parse token with
  | some (.string key) => some key
  | _ => none

/-- One token; `none` where the scan throws. -/
def Scan.visit (s : Scan) (token : Units) : Option Scan :=
  if token = [123] ∨ token = [91] then some { s with depth := s.depth + 1 }
  else if token = [125] ∨ token = [93] then some { s with depth := s.depth - 1 }
  else if s.depth ≠ 1 then some s
  else if token = [44] then some { s with atKey := true, atValue := false, key := none }
  else if token = [58] then some { s with atValue := true }
  else if s.atKey = true ∧ token.head? = some 34 then
    (parseKey token).map fun key => { s with key := some key, atKey := false }
  else
    let requestId :=
      if s.atValue = true ∧ s.key = some requestIdKey ∧ token.head? ≠ some 34 then some token
      else s.requestId
    some { s with requestId, atValue := false }

def requestIdFromBody (body : Units) : Option Units :=
  match parse body with
  | none => none
  | some value =>
      match value.get? requestIdKey with
      | some (.string text) => some text
      | some (.number _) => ((matchAll 0 body).foldlM Scan.visit Scan.start).bind Scan.requestId
      | _ => none

/-! ## What the expression finds -/

/-- The expression does not know the keywords. -/
def seen : Token → Bool
  | .null | .bool _ => false
  | _ => true

theorem markAt_text {token : Token} (hseen : seen token = true) (h : token.Proper) {rest : Units}
    (hrest : token.isNumber = true → Stops rest) :
    markAt (token.text ++ rest) = some token.text := by
  cases token with
  | number fields =>
    obtain ⟨c, more, htext, hc⟩ := NumberFields.WellFormed.head h
    have hnumber := numberAt_text h (hrest rfl)
    have hquote : (c :: (more ++ rest)).head? ≠ some 34 := fun hhead =>
      ne_of_starts hc rfl (by decide) (Option.some.inj hhead)
    rw [htext, List.cons_append] at hnumber
    rw [Token.text, htext, List.cons_append]
    simp only [markAt, if_neg hquote, hnumber, Option.map_some, Option.none_or, Option.some_or, htext]
  | string body =>
    obtain ⟨hdecode, hbody⟩ := h
    obtain ⟨decoded, hdecode⟩ := Option.isSome_iff_exists.mp hdecode
    have htext : (Token.string body).text ++ rest = 34 :: (body ++ 34 :: rest) := by
      simp [Token.text]
    rw [htext]
    simp only [markAt, List.head?_cons, if_true, List.tail_cons,
      literalBody_append hdecode rest (hbody rest)]
    rfl
  | null => cases hseen
  | bool value => cases hseen
  | _ => rfl

theorem matchAll_skip (a b : Units) : matchAll a.length (a ++ b) = matchAll 0 b := by
  induction a with
  | nil => rfl
  | cons c rest ih => exact ih

theorem markAt_white {c : Nat} (hc : isWhite c = true) (rest : Units) :
    markAt (c :: rest) = none := by
  simp only [isWhite, Bool.or_eq_true, decide_eq_true_eq] at hc
  rcases hc with ((rfl | rfl) | rfl) | rfl <;> rfl

theorem matchAll_white {white : Units} (hwhite : White white) (rest : Units) :
    matchAll 0 (white ++ rest) = matchAll 0 rest := by
  induction white with
  | nil => rfl
  | cons c more ih =>
    rw [List.cons_append, matchAll, markAt_white (hwhite c (by simp))]
    exact ih fun d hd => hwhite d (List.mem_cons_of_mem _ hd)

/-- No keyword has a unit that the expression would take. -/
theorem matchAll_keyword {token : Token} (hseen : seen token = false) (rest : Units) :
    matchAll 0 (token.text ++ rest) = matchAll 0 rest := by
  cases token with
  | null => rfl
  | bool value => cases value <;> rfl
  | _ => cases hseen

theorem matchAll_spell {pieces : List Piece} {last : Units} (h : Spelling pieces last)
    (hstop : NumbersStop (pieces.map Piece.token)) :
    matchAll 0 (spell pieces last) =
      ((pieces.map Piece.token).filter seen).map Token.text := by
  induction pieces with
  | nil =>
    have hend := matchAll_white h.last []
    rwa [List.append_nil] at hend
  | cons piece rest ih =>
    have hproper := h.proper piece (List.mem_cons_self ..)
    have hwhite := h.white piece (List.mem_cons_self ..)
    have hfollows := hstop.follows h
    have hrest := ih h.tail hstop.tail
    obtain ⟨white, token⟩ := piece
    simp only at hproper hwhite hfollows
    have hspell : spell (⟨white, token⟩ :: rest) last = white ++ (token.text ++ spell rest last) := by
      simp [spell]
    rw [hspell, matchAll_white hwhite, List.map_cons]
    cases hseen : seen token with
    | false =>
      rw [matchAll_keyword hseen, List.filter_cons_of_neg (by rw [hseen]; simp)]
      exact hrest
    | true =>
      rw [List.filter_cons_of_pos hseen, List.map_cons, ← hrest]
      have hmark := markAt_text hseen hproper hfollows
      cases htext : token.text with
      | nil => exact absurd htext (tokenAt_leads (tokenAt_text hproper hfollows)).2
      | cons c more =>
        rw [htext, List.cons_append] at hmark
        rw [List.cons_append, matchAll, hmark]
        exact congrArg _ (matchAll_skip more _)

/-! ## The scan beside the parser -/

def numberText : Value → Option Units
  | .number fields => some fields.text
  | _ => none

/-- The last number that the members have under `request_id`. -/
def lexeme (members : List (Units × Value)) : Option Units :=
  ((valuesAt requestIdKey members).filterMap numberText).getLast?

theorem lexeme_concat (members : List (Units × Value)) (name : Units) (v : Value) :
    lexeme (members ++ [(name, v)]) =
      if name = requestIdKey then (numberText v).or (lexeme members) else lexeme members := by
  unfold lexeme
  rw [valuesAt_concat]
  by_cases hname : name = requestIdKey
  · rw [if_pos hname, if_pos hname, List.filterMap_append]
    cases hv : numberText v with
    | none => simp [hv]
    | some text => simp [hv]
  · rw [if_neg hname, if_neg hname, List.append_nil]

theorem lexeme_of_compound (members : List (Units × Value)) (name : Units) {v : Value}
    (h : numberText v = none) : lexeme (members ++ [(name, v)]) = lexeme members := by
  rw [lexeme_concat, h, Option.none_or]
  exact ite_self _

/-- The flags of the scan, at each place. -/
inductive Tracks : Place → Scan → Prop where
  | key {members : List (Units × Value)} {s : Scan} (hdepth : s.depth = 1)
      (hkey : s.atKey = true) (hid : s.requestId = lexeme members) : Tracks (.key members) s
  | colon {members : List (Units × Value)} {name : Units} {s : Scan} (hdepth : s.depth = 1)
      (hkey : s.atKey = false) (hname : s.key = some name) (hid : s.requestId = lexeme members) :
      Tracks (.colon members name) s
  | inside {members : List (Units × Value)} {name : Units} {state : State} {s : Scan}
      (hdepth : s.depth = 1 + state.depth) (hkey : s.atKey = false) (hname : s.key = some name)
      (hvalue : s.atValue = true) (hopen : finished state = none)
      (hid : s.requestId = lexeme members) : Tracks (.inside members name state) s
  | value {members : List (Units × Value)} {name : Units} {v : Value} {s : Scan}
      (hdepth : s.depth = 1) (hid : s.requestId = lexeme (members ++ [(name, v)])) :
      Tracks (.inside members name (.after [] v)) s
  | done {members : List (Units × Value)} {s : Scan} (hid : s.requestId = lexeme members) :
      Tracks (.done members) s

/-- What the scan makes of a token: nothing of a keyword. -/
def visitToken (s : Scan) (token : Token) : Option Scan :=
  if seen token then s.visit token.text else some s

theorem parseKey_text {body name : Units} (h : Token.Proper (.string body))
    (hdecode : decodeString body = some name) :
    parseKey (Token.string body).text = some name := by
  have hspelling : Spelling [⟨[], .string body⟩] [] := by
    refine ⟨?_, ?_, ?_⟩
    · intro piece hpiece
      rw [List.mem_singleton.mp hpiece]
      intro c hc
      cases hc
    · intro c hc
      cases hc
    · intro piece hpiece
      rw [List.mem_singleton.mp hpiece]
      exact h
  have hlex := lex_spell hspelling (.singleton _)
  have htext : spell [⟨[], .string body⟩] [] = (Token.string body).text := by simp [spell]
  rw [htext] at hlex
  unfold parseKey parse
  rw [hlex]
  simp only [List.map_cons, List.map_nil, Option.bind_eq_bind, Option.bind_some, run, step, valueStep,
    hdecode, Option.map_some, finished]

theorem visit_opens (s : Scan) {token : Token} (h : token.opens = true) :
    visitToken s token = some { s with depth := s.depth + 1 } := by
  cases token with
  | beginArray => rfl
  | beginObject => rfl
  | _ => cases h

theorem visit_shuts (s : Scan) {token : Token} (h : token.shuts = true) :
    visitToken s token = some { s with depth := s.depth - 1 } := by
  rcases shuts_iff.mp h with rfl | rfl
  · rfl
  · rfl

/-- The other tokens are no bracket and no brace. -/
theorem text_ne_brace {token : Token} (hproper : token.Proper) (hopens : token.opens = false)
    (hshuts : token.shuts = false) :
    ¬(token.text = [123] ∨ token.text = [91]) ∧ ¬(token.text = [125] ∨ token.text = [93]) := by
  cases token with
  | number fields =>
    have hmark : ∀ c, isDigit c = false → c ≠ 45 → fields.text ≠ [c] := by
      intro c hdigit hminus htext
      exact NumberFields.WellFormed.head_ne hproper hdigit hminus (by rw [htext]; rfl)
    constructor
    · exact not_or.mpr ⟨hmark 123 rfl (by decide), hmark 91 rfl (by decide)⟩
    · exact not_or.mpr ⟨hmark 125 rfl (by decide), hmark 93 rfl (by decide)⟩
  | string body => simp [Token.text]
  | beginArray => cases hopens
  | beginObject => cases hopens
  | endArray => cases hshuts
  | endObject => cases hshuts
  | bool value => cases value <;> decide
  | _ => decide

/-- Deeper in, nothing else counts. -/
theorem visit_deep {s : Scan} {token : Token} (hdepth : s.depth ≠ 1) (hproper : token.Proper)
    (hopens : token.opens = false) (hshuts : token.shuts = false) :
    visitToken s token = some s := by
  obtain ⟨hopen, hshut⟩ := text_ne_brace hproper hopens hshuts
  unfold visitToken Scan.visit
  rw [if_neg hopen, if_neg hshut, if_pos hdepth, ite_self]

theorem visit_number {s : Scan} {fields : NumberFields} (hproper : fields.WellFormed)
    (hdepth : s.depth = 1) (hvalue : s.atValue = true) :
    visitToken s (.number fields) = some
      { s with
        requestId := if s.key = some requestIdKey then some fields.text else s.requestId
        atValue := false } := by
  obtain ⟨hopen, hshut⟩ := text_ne_brace (show Token.Proper (.number fields) from hproper) rfl rfl
  have hhead : fields.text.head? ≠ some 34 := hproper.head_ne rfl (by decide)
  have hmark : fields.text ≠ [44] ∧ fields.text ≠ [58] := by
    have hcomma : fields.text.head? ≠ some 44 := hproper.head_ne rfl (by decide)
    have hcolon : fields.text.head? ≠ some 58 := hproper.head_ne rfl (by decide)
    constructor
    · intro htext
      exact hcomma (by rw [htext]; rfl)
    · intro htext
      exact hcolon (by rw [htext]; rfl)
  simp only [Token.text] at hopen hshut
  simp only [visitToken, seen, if_true, Token.text, Scan.visit, if_neg hopen, if_neg hshut, hdepth,
    ne_eq, not_true_eq_false, if_false, if_neg hmark.1, if_neg hmark.2, hhead, and_false, hvalue,
    not_false_eq_true, and_true, true_and]

theorem visit_string {s : Scan} {body : Units} (hdepth : s.depth = 1) (hkey : s.atKey = false) :
    visitToken s (.string body) = some { s with atValue := false } := by
  simp [visitToken, seen, Scan.visit, Token.text, hdepth, hkey]

theorem visit_key {s : Scan} {body name : Units} (hproper : Token.Proper (.string body))
    (hdecode : decodeString body = some name) (hdepth : s.depth = 1) (hkey : s.atKey = true) :
    visitToken s (.string body) = some { s with key := some name, atKey := false } := by
  have hparse := parseKey_text hproper hdecode
  simp only [Token.text] at hparse
  simp [visitToken, seen, Scan.visit, Token.text, hdepth, hkey, hparse]

/-- The first token of a member's value. -/
theorem tracks_first {members : List (Units × Value)} {name : Units} {s : Scan}
    (hdepth : s.depth = 1) (hkey : s.atKey = false) (hname : s.key = some name)
    (hvalue : s.atValue = true) (hid : s.requestId = lexeme members) {token : Token} {next : State}
    (hstep : step (.value []) token = some next) (hproper : token.Proper) :
    ∃ s', visitToken s token = some s' ∧ Tracks (.inside members name next) s' := by
  rcases first_token hstep with ⟨v, rfl, hbegins, hscalar⟩ | ⟨hopens, hopen⟩
  · cases hbegins with
    | null =>
      refine ⟨s, rfl, .value hdepth ?_⟩
      rw [hid, lexeme_of_compound members name rfl]
    | bool value =>
      refine ⟨s, rfl, .value hdepth ?_⟩
      rw [hid, lexeme_of_compound members name rfl]
    | number fields =>
      refine ⟨_, visit_number hproper hdepth hvalue, .value hdepth ?_⟩
      rw [lexeme_concat, hname]
      simp only [Option.some.injEq, hid]
      rfl
    | string hdecode =>
      refine ⟨_, visit_string hdepth hkey, .value hdepth ?_⟩
      rw [lexeme_of_compound members name rfl]
      exact hid
    | compound hopens hcompound =>
      rw [hscalar] at hcompound
      cases hcompound
  · have hnext := depth_step hstep
    rw [hopens, not_shuts_of_opens hopens] at hnext
    refine ⟨_, visit_opens s hopens, .inside ?_ hkey hname hvalue hopen hid⟩
    simp only [hdepth]
    have hone : next.depth = 1 := hnext
    rw [hone]
    rfl

/-- The scan keeps up with the parser. -/
theorem tracks_move {place place' : Place} {s : Scan} {token : Token} (h : Tracks place s)
    (hmove : Move place token place') (hproper : token.Proper) :
    ∃ s', visitToken s token = some s' ∧ Tracks place' s' := by
  cases hmove with
  | name hdecode =>
    cases h with
    | key hdepth hkey hid =>
      exact ⟨_, visit_key hproper hdecode hdepth hkey, .colon hdepth rfl rfl hid⟩
  | empty =>
    cases h with
    | key hdepth hkey hid => exact ⟨_, visit_shuts s rfl, .done hid⟩
  | colon =>
    cases h with
    | colon hdepth hkey hname hid =>
      refine ⟨{ s with atValue := true }, ?_, .inside ?_ hkey hname rfl rfl hid⟩
      · simp [visitToken, seen, Scan.visit, Token.text, hdepth]
      · simp [hdepth, State.depth]
  | comma =>
    cases h with
    | value hdepth hid =>
      refine ⟨{ s with atKey := true, atValue := false, key := none }, ?_, .key hdepth rfl hid⟩
      simp [visitToken, seen, Scan.visit, Token.text, hdepth]
    | inside _ _ _ _ hopen => cases hopen
  | close =>
    cases h with
    | value hdepth hid => exact ⟨_, visit_shuts s rfl, .done hid⟩
    | inside _ _ _ _ hopen => cases hopen
  | @inner members name state next token hopen hstep =>
    cases h with
    | value hdepth hid => cases hopen
    | inside hdepth hkey hname hvalue _ hid =>
      by_cases hzero : state.depth = 0
      · have hstart := depth_eq_zero hzero hopen
        rw [hstart] at hstep
        rw [hzero] at hdepth
        exact tracks_first (by simpa using hdepth) hkey hname hvalue hid hstep hproper
      · -- inside an array or an object only the depth changes
        have hnext := depth_step hstep
        cases hopens : token.opens with
        | true =>
          rw [hopens, not_shuts_of_opens hopens] at hnext
          have hdeeper : next.depth = state.depth + 1 := hnext
          refine ⟨_, visit_opens s hopens, .inside ?_ hkey hname hvalue ?_ hid⟩
          · simp only [hdepth, hdeeper]
            push_cast
            ring
          · cases hfinished : finished next with
            | none => rfl
            | some v =>
              have := (depth_of_finished hfinished).2
              omega
        | false =>
          cases hshuts : token.shuts with
          | true =>
            rw [hopens, hshuts] at hnext
            have hshallower : next.depth + 1 = state.depth := hnext
            have hdepth' : s.depth - 1 = 1 + next.depth := by
              rw [hdepth, ← hshallower]
              push_cast
              ring
            cases hfinished : finished next with
            | none =>
              exact ⟨_, visit_shuts s hshuts, .inside hdepth' hkey hname hvalue hfinished hid⟩
            | some v =>
              obtain ⟨hlast, hdone⟩ := depth_of_finished hfinished
              rw [hdone] at hdepth'
              rw [hlast] at hstep ⊢
              refine ⟨_, visit_shuts s hshuts, .value hdepth' ?_⟩
              have hcompound := compound_of_shuts hshuts hstep
              have hnumber : numberText v = none := by
                cases v with
                | number fields => cases hcompound
                | _ => rfl
              rw [lexeme_of_compound members name hnumber]
              exact hid
          | false =>
            rw [hopens, hshuts] at hnext
            have hsame : next.depth = state.depth := hnext
            have hdeep : s.depth ≠ 1 := by
              rw [hdepth]
              omega
            refine ⟨s, visit_deep hdeep hproper hopens hshuts, .inside ?_ hkey hname hvalue ?_ hid⟩
            · rw [hdepth, hsame]
            · cases hfinished : finished next with
              | none => rfl
              | some v =>
                have := (depth_of_finished hfinished).2
                omega

/-- The scan of all tokens of an object. -/
theorem tracks_object {tokens : List Token} {members : List (Units × Value)}
    (hproper : ∀ token ∈ tokens, token.Proper)
    (h : run (.value []) tokens = some (.after [] (.object members))) :
    ∃ s, tokens.foldlM visitToken Scan.start = some s ∧ s.requestId = lexeme members := by
  have htracks : (∀ token ∈ tokens, token.Proper) →
      ∃ s, tokens.foldlM visitToken Scan.start = some s ∧ Tracks (.done members) s := by
    apply run_places (P := fun place before => (∀ token ∈ before, token.Proper) →
      ∃ s, before.foldlM visitToken Scan.start = some s ∧ Tracks place s) _ _ h
    · intro _
      exact ⟨{ Scan.start with depth := 1 }, rfl, .key rfl rfl rfl⟩
    · intro place before token place' _ hplace hmove hall
      obtain ⟨s, hs, htracks⟩ := hplace fun t ht => hall t (List.mem_append_left _ ht)
      obtain ⟨s', hs', htracks'⟩ := tracks_move htracks hmove (hall token (by simp))
      refine ⟨s', ?_, htracks'⟩
      rw [List.foldlM_append, hs]
      simp [hs']
  obtain ⟨s, hs, hdone⟩ := htracks hproper
  cases hdone with
  | done hid => exact ⟨s, hs, hid⟩

theorem foldlM_visit (s : Scan) (tokens : List Token) :
    ((tokens.filter seen).map Token.text).foldlM Scan.visit s = tokens.foldlM visitToken s := by
  induction tokens generalizing s with
  | nil => rfl
  | cons token rest ih =>
    cases hseen : seen token with
    | false =>
      rw [List.filter_cons_of_neg (by rw [hseen]; simp), List.foldlM_cons, visitToken, hseen,
        if_neg Bool.false_ne_true]
      exact ih s
    | true =>
      rw [List.filter_cons_of_pos hseen, List.map_cons, List.foldlM_cons, List.foldlM_cons,
        visitToken, hseen, if_pos rfl]
      exact bind_congr ih

/-! ## The last request id -/

theorem get?_object (name : Units) (members : List (Units × Value)) :
    (Value.object members).get? name = (valuesAt name members).getLast? := by
  rw [Value.get?, valuesAt, List.getLast?_map, List.getLast?_filter]

/-- A number as it is spelled, and a string. -/
def idOfValue : Option Value → Option Units
  | some (.number fields) => some fields.text
  | some (.string text) => some text
  | _ => none

def idOfToken : Option Token → Option Units
  | some (.number fields) => some fields.text
  | some (.string body) => decodeString body
  | _ => none

theorem idOfToken_opens {token : Token} (h : token.opens = true) :
    idOfToken (some token) = none := by
  cases token with
  | number fields => cases h
  | string body => cases h
  | _ => rfl

theorem idOfValue_compound {v : Value} (h : v.isCompound = true) : idOfValue (some v) = none := by
  cases v with
  | number fields => cases h
  | string text => cases h
  | _ => rfl

theorem idOf_begins {found : List Token} {values : List Value}
    (h : List.Forall₂ Begins found values) :
    idOfToken found.getLast? = idOfValue values.getLast? := by
  have hreverse := List.rel_reverse h
  rw [List.getLast?_eq_head?_reverse, List.getLast?_eq_head?_reverse]
  generalize found.reverse = lasts at hreverse ⊢
  generalize values.reverse = lastValues at hreverse ⊢
  cases hreverse with
  | nil => rfl
  | cons hbegins _ =>
    cases hbegins with
    | string hdecode => exact hdecode
    | compound hopens hcompound =>
      exact (idOfToken_opens hopens).trans (idOfValue_compound hcompound).symm
    | _ => rfl

theorem tokens_of_parse {body : Units} {value : Value} (h : parse body = some value) :
    ∃ tokens, lex body = some tokens ∧ run (.value []) tokens = some (.after [] value) := by
  obtain ⟨tokens, hlex, hrest⟩ := Option.bind_eq_some_iff.mp h
  obtain ⟨state, hrun, hfinished⟩ := Option.bind_eq_some_iff.mp hrest
  rw [(depth_of_finished hfinished).1] at hrun
  exact ⟨tokens, hlex, hrun⟩

/-- In a body that is an object the scan ends with the last number. -/
theorem scan_object {body : Units} {tokens : List Token} {members : List (Units × Value)}
    (hlex : lex body = some tokens)
    (hrun : run (.value []) tokens = some (.after [] (.object members))) :
    ((matchAll 0 body).foldlM Scan.visit Scan.start).bind Scan.requestId = lexeme members := by
  obtain ⟨pieces, last, hspelling, rfl, rfl⟩ := spelled_of_lex hlex
  obtain ⟨s, hs, hid⟩ := tracks_object (proper_of_lexFrom hlex) hrun
  rw [matchAll_spell hspelling (numbersStop_of_run hrun), foldlM_visit, hs]
  exact hid

theorem requestIdFromBody_value {body : Units} {value : Value} (h : parse body = some value) :
    requestIdFromBody body = idOfValue (value.get? requestIdKey) := by
  obtain ⟨tokens, hlex, hrun⟩ := tokens_of_parse h
  unfold requestIdFromBody
  simp only [h]
  cases hget : value.get? requestIdKey with
  | none => rfl
  | some found =>
    cases found with
    | number fields =>
      cases value with
      | object members =>
        simp only [scan_object hlex hrun]
        rw [get?_object] at hget
        obtain ⟨before, hsplit⟩ := List.getLast?_eq_some_iff.mp hget
        rw [lexeme, hsplit, List.filterMap_append]
        exact List.getLast?_concat
      | _ => cases hget
    | _ => rfl

/-- The id of a body that parses: that of the parsed value, and of the last occurrence of
its key among the tokens of the outermost object. -/
theorem requestIdFromBody_last {body : Units} {value : Value} (h : parse body = some value) :
    requestIdFromBody body = idOfValue (value.get? requestIdKey) ∧
      ∃ tokens, lex body = some tokens ∧ Lexed body tokens ∧
        requestIdFromBody body =
          idOfToken (occurrences requestIdKey (.value []) tokens).getLast? := by
  have hvalue := requestIdFromBody_value h
  obtain ⟨tokens, hlex, hrun⟩ := tokens_of_parse h
  refine ⟨hvalue, tokens, hlex, lexed_of_lex hlex, ?_⟩
  rw [hvalue]
  cases value with
  | object members =>
    rw [get?_object]
    exact (idOf_begins (occurrences_begin requestIdKey hrun)).symm
  | _ =>
    rw [occurrences_other requestIdKey hrun (by simp)]
    rfl

/-- The key is spelled in two ways, and stands deeper in and in a string as well. -/
theorem requestIdFromBody_last_nested :
    requestIdFromBody (Units.of
      "\x7b\"request_id\": 1, \"a\": [\x7b\"request_id\": 2\x7d, \"\x7b\\\"request_id\\\": 3\"], \"request\\u005fid\" : 1.50e+3\x7d") =
      some (Units.of "1.50e+3") := by
  generalize hbody : Units.of
    "\x7b\"request_id\": 1, \"a\": [\x7b\"request_id\": 2\x7d, \"\x7b\\\"request_id\\\": 3\"], \"request\\u005fid\" : 1.50e+3\x7d" = body
  have hparses : (parse body).isSome = true := by
    rw [← hbody]
    decide +kernel
  have htokens : (lex body).map (fun tokens =>
      idOfToken (occurrences requestIdKey (.value []) tokens).getLast?) =
      some (some (Units.of "1.50e+3")) := by
    rw [← hbody]
    decide +kernel
  obtain ⟨value, hvalue⟩ := Option.isSome_iff_exists.mp hparses
  obtain ⟨_, tokens, hlex, _, hid⟩ := requestIdFromBody_last hvalue
  rw [hlex, Option.map_some, Option.some.injEq] at htokens
  exact hid.trans htokens

end Redaction
