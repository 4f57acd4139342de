import OpenaiAuth.WebSocket.CanonicalInput
import OpenaiAuth.WebSocket.Session

/-! # Turn ids of a pool entry

The turn id that the requests of one entry carry, over the socket and over
HTTP. The texts kept between requests are part of the state. Which arrays are
one object, or hold the same objects, is left open at every step.

Left out are the start time of a turn, the metadata the id is written into, and
the texts that the chaining tests add to a comparison: they are those of the
array they are kept for.
-/

namespace WebSocket

open Js

/-! ## Comparisons -/

/-- What `===` says of arrays and of the objects in them. -/
structure ArrayIdentity where
  sameArray : List Json → List Json → Bool
  sameObjects : List Json → List Json → Bool
  eq_of_sameArray : ∀ a b, sameArray a b = true → a = b
  eq_of_sameObjects : ∀ a b, sameObjects a b = true → a = b

/-- `RequestComparison` -/
structure RequestComparison where
  input : CanonicalInput
  signature : Json
  priorInputs : List (List Json × CanonicalInput)

/-- `priorInputs.set(input, canonical)` -/
def setPrior (arrays : ArrayIdentity) (input : List Json) (canonical : CanonicalInput)
    (priors : List (List Json × CanonicalInput)) : List (List Json × CanonicalInput) :=
  if priors.any fun p => arrays.sameArray p.1 input then
    priors.map fun p => if arrays.sameArray p.1 input then (p.1, canonical) else p
  else priors ++ [(input, canonical)]

/-- A pool entry with its turn state. Ids are numbered as `uuidV7` makes them. -/
structure PoolEntry where
  entry : Entry := {}
  fallback : Bool := false
  turnID : Option Nat := none
  turnInput : Option (List Json) := none
  turnSignature : Option Json := none
  turnCanonical : Option CanonicalInput := none
  /-- `continuation.canonical` -/
  continuationCanonical : Option CanonicalInput := none
  /-- The comparison of the request under way. -/
  comparison : Option RequestComparison := none
  /-- The request under way was answered. -/
  answered : Bool := false
  /-- How many ids were made. -/
  minted : Nat := 0

section

-- the length of a canonical text
variable (textLength : Json → Nat)

/-- The texts of an array, and the comparison that remembers them. -/
def priorCanonical (arrays : ArrayIdentity) (comparison : RequestComparison) (input : List Json) :
    CanonicalInput × RequestComparison :=
  match comparison.priorInputs.find? fun p => arrays.sameArray p.1 input with
  | some found => (found.2, comparison)
  | none =>
      let canonical :=
        match comparison.priorInputs.find? fun p => arrays.sameObjects p.1 input with
        | some found => found.2
        | none => canonicalInput textLength input none
      (canonical,
        { comparison with priorInputs := setPrior arrays input canonical comparison.priorInputs })

namespace PoolEntry

def requestComparison (arrays : ArrayIdentity) (p : PoolEntry) (body : Members) :
    RequestComparison :=
  let input := Body.input body
  let turn := p.turnInput.bind fun input => p.turnCanonical.map fun canonical => (input, canonical)
  let chain := p.entry.continuation.bind fun prior =>
    p.continuationCanonical.map fun canonical => (prior.input, canonical)
  let priors := (turn.toList ++ chain.toList).foldl
    (fun priors pair => setPrior arrays pair.1 pair.2 priors) []
  let canonical := canonicalInput textLength input (p.turnCanonical.or (chain.map Prod.snd))
  { input := canonical
    signature := bodySignature body
    priorInputs := setPrior arrays input canonical priors }

/-- How much of the input the turn's last one is, if the signature is the same. -/
def turnPrefix (arrays : ArrayIdentity) (comparison : RequestComparison) (p : PoolEntry) :
    Option Nat × RequestComparison :=
  match p.turnInput with
  | some turnInput =>
      if p.turnSignature = some comparison.signature then
        let (canonical, comparison) := priorCanonical textLength arrays comparison turnInput
        (canonicalPrefixLength canonical comparison.input, comparison)
      else (none, comparison)
  | none => (none, comparison)

/-- `entry.turnID = uuidV7()`, for a new turn or the first one. -/
def mintTurn (isNewTurn : Bool) (p : PoolEntry) : PoolEntry :=
  if isNewTurn || p.turnID.isNone then { p with turnID := some p.minted, minted := p.minted + 1 }
  else p

/-- The turn for a sent body; `fullBody` is the one it was made of. -/
def advanceTurn (arrays : ArrayIdentity) (body fullBody : Members)
    (comparison : RequestComparison) (p : PoolEntry) : PoolEntry :=
  let input := Body.input body
  let fullInput := (Body.input? fullBody).getD input
  let (prefixLength, comparison) := p.turnPrefix textLength arrays comparison
  let turnInput :=
    match prefixLength with
    | none => input
    | some length => fullInput.drop length
  let isNewTurn := turnInput.any isUserTurnMessage
  { p.mintTurn isNewTurn with
    turnInput := some fullInput
    turnSignature := some comparison.signature
    turnCanonical := retainedInput comparison.input
    comparison := some
      { comparison with
        priorInputs := setPrior arrays fullInput comparison.input comparison.priorInputs } }

/-- The texts that are kept with the continuation a step left. -/
def keepCanonical (p : PoolEntry) (after : Option Continuation) : Option CanonicalInput :=
  match after with
  | none => none
  | some prior =>
      if p.entry.continuation = some prior then p.continuationCanonical
      else if prior.input = [] then retainedInput (canonicalInput textLength [] none)
      else p.comparison.bind fun comparison => retainedInput comparison.input

end PoolEntry

/-- The main request that a step composed, to which the turn is applied. -/
def composed? (before after : Entry) : Option Members :=
  match before.phase, after.phase with
  | .connecting _, .composed _ request | .prewarmed _, .composed _ request => some request
  | _, _ => none

/-- The step ends the main response with `[DONE]`. Any other end is a failure,
after which the host asks again. -/
def answers (js : Builtins) (w : Entry) (c : Choice) : Bool :=
  match w.phase, c with
  | .streaming _ _ stream, .receive e =>
      stream.ending ≠ some .closed && (receive (streamOptions js) stream e).ending = some .closed
  | _, _ => false

/-- What happens next to the body that is sent. -/
inductive SendStep where
  /-- The host asks, or asks again after a failure. -/
  | fetch (arrays : ArrayIdentity)
  /-- A step of the request over the socket. -/
  | socket (c : Choice) (arrays : ArrayIdentity)
  /-- The failure was one too many: from now on the entry uses HTTP. -/
  | giveUp
  /-- The failed request is handed to HTTP, and so is every later one. -/
  | http (arrays : ArrayIdentity)

namespace PoolEntry

/-- A step of the entry. Where it composes the main request, the turn is applied
to that request. -/
def socketStep (js : Builtins) (body : Members) (c : Choice) (arrays : ArrayIdentity)
    (p : PoolEntry) : PoolEntry :=
  let entry := WebSocket.step js p.entry c
  let q :=
    { p with
      entry
      continuationCanonical := p.keepCanonical textLength entry.continuation
      answered := p.answered || answers js p.entry c }
  match composed? p.entry entry, p.comparison with
  | some request, some comparison =>
      q.advanceTurn textLength arrays request (normalizeResponseBody body) comparison
  | _, _ => q

def step (js : Builtins) (body : Members) (p : PoolEntry) : SendStep → PoolEntry
  | .fetch arrays =>
      if p.answered || !p.entry.phase.isIdle then p
      else
        let sourceBody := normalizeResponseBody body
        let comparison := p.requestComparison textLength arrays sourceBody
        if p.fallback then
          { p.advanceTurn textLength arrays sourceBody sourceBody comparison with answered := true }
        else
          { p with
            entry := WebSocket.step js p.entry (.fetch body)
            comparison := some comparison }
  | .socket c arrays =>
      match c with
      | .fetch _ | .sendHttp _ | .drop => p
      | c => p.socketStep textLength js body c arrays
  | .giveUp =>
      if p.answered || !p.entry.phase.isIdle || p.comparison.isNone then p
      else { p with fallback := true }
  | .http arrays =>
      if p.answered || !p.entry.phase.isIdle then p
      else
        match p.comparison with
        | some comparison =>
            { p.advanceTurn textLength arrays (normalizeResponseBody body)
                (normalizeResponseBody body) comparison with
              fallback := true
              answered := true }
        | none => p

/-- One body is sent, with all its attempts. -/
def send (js : Builtins) (p : PoolEntry) (body : Members) (steps : List SendStep) : PoolEntry :=
  steps.foldl (step textLength js body) { p with comparison := none, answered := false }

/-- The entry after each of the bodies. -/
def sends (js : Builtins) (p : PoolEntry) : List Members → List (List SendStep) → List PoolEntry
  | body :: bodies, steps :: outcomes =>
      p.send textLength js body steps ::
        (p.send textLength js body steps).sends js bodies outcomes
  | _, _ => []

end PoolEntry

end

/-- At which of the states the turn id is another than before. -/
def turnChanges (p : PoolEntry) : List PoolEntry → List Bool
  | [] => []
  | q :: qs => (q.turnID ≠ p.turnID) :: turnChanges q qs

/-! ## When a turn starts -/

/-- The later input begins with the earlier one. -/
def extendsInput (before body : Members) : Bool :=
  ((Body.input before).map Json.stable).isPrefixOf ((Body.input body).map Json.stable)

/-- What a body adds to the one before, all of it where nothing can be told. -/
def addedItems (before body : Members) : List Json :=
  if bodySignature before = bodySignature body && extendsInput before body then
    (Body.input body).drop (Body.input before).length
  else Body.input body

def startsTurn (before : Option Members) (body : Members) : Bool :=
  match before with
  | none => true
  | some before => (addedItems before body).any isUserTurnMessage

/-- The bodies that start a turn, whatever carried them. -/
def turnStarts (before : Option Members) : List Members → List Bool
  | [] => []
  | body :: bodies => startsTurn before body :: turnStarts (some body) bodies

/-! ## Texts that are kept are those of the input -/

/-- The comparison is of this body, and its texts are those of the arrays. -/
structure RequestComparison.Sound (comparison : RequestComparison) (body : Members) : Prop where
  input : comparison.input.Represents (Body.input body)
  signature : comparison.signature = bodySignature body
  priors : ∀ p ∈ comparison.priorInputs, p.2.Represents p.1

/-- The texts an entry keeps are those of its arrays. -/
structure TextsSound (p : PoolEntry) : Prop where
  items : ∀ input, p.turnInput = some input → ∀ item ∈ input, item.keysOnce = true
  turn : ∀ canonical, p.turnCanonical = some canonical →
    ∃ input, p.turnInput = some input ∧ canonical.Represents input
  chain : ∀ canonical prior, p.continuationCanonical = some canonical →
    p.entry.continuation = some prior → canonical.Represents prior.input

theorem represents_setPrior {arrays : ArrayIdentity} {input : List Json}
    {canonical : CanonicalInput} {priors : List (List Json × CanonicalInput)}
    (h : ∀ p ∈ priors, p.2.Represents p.1) (hnew : canonical.Represents input) :
    ∀ p ∈ setPrior arrays input canonical priors, p.2.Represents p.1 := by
  intro p hp
  unfold setPrior at hp
  split at hp
  · obtain ⟨old, hold, rfl⟩ := List.mem_map.mp hp
    split
    case isTrue hsame =>
      rw [arrays.eq_of_sameArray _ _ hsame]
      exact hnew
    case isFalse => exact h old hold
  · rcases List.mem_append.mp hp with hp | hp
    · exact h p hp
    · rw [List.mem_singleton.mp hp]
      exact hnew

theorem represents_foldl_setPrior {arrays : ArrayIdentity}
    {pairs priors : List (List Json × CanonicalInput)}
    (hpairs : ∀ p ∈ pairs, p.2.Represents p.1) (h : ∀ p ∈ priors, p.2.Represents p.1) :
    ∀ p ∈ pairs.foldl (fun priors pair => setPrior arrays pair.1 pair.2 priors) priors,
      p.2.Represents p.1 := by
  induction pairs generalizing priors with
  | nil => exact h
  | cons pair rest ih =>
      exact ih (fun p hp => hpairs p (by simp [hp]))
        (represents_setPrior h (hpairs pair (by simp)))

theorem retainedInput_eq_some {canonical kept : CanonicalInput}
    (h : retainedInput canonical = some kept) : kept = canonical := by
  unfold retainedInput at h
  split at h
  · exact (Option.some.inj h).symm
  · cases h

theorem priorCanonical_sound (textLength : Json → Nat) (arrays : ArrayIdentity)
    {comparison : RequestComparison} {body : Members} {input : List Json}
    (h : comparison.Sound body) (hitems : ∀ item ∈ input, item.keysOnce = true) :
    (priorCanonical textLength arrays comparison input).1.Represents input ∧
      (priorCanonical textLength arrays comparison input).2.Sound body ∧
      (priorCanonical textLength arrays comparison input).2.input = comparison.input := by
  unfold priorCanonical
  split
  case h_1 found hfound =>
    have hfound' := List.find?_some hfound
    have hsame : found.1 = input := arrays.eq_of_sameArray _ _ hfound'
    have hrepresents := h.priors found (List.mem_of_find?_eq_some hfound)
    rw [hsame] at hrepresents
    exact ⟨hrepresents, h, rfl⟩
  case h_2 =>
    have hrepresents :
        (match comparison.priorInputs.find? fun p : List Json × CanonicalInput =>
            arrays.sameObjects p.1 input with
          | some found => found.2
          | none => canonicalInput textLength input none).Represents input := by
      split
      case h_1 found hfound =>
        have hfound' := List.find?_some hfound
        have hsame : found.1 = input := arrays.eq_of_sameObjects _ _ hfound'
        have hrepresents := h.priors found (List.mem_of_find?_eq_some hfound)
        rw [hsame] at hrepresents
        exact hrepresents
      case h_2 => exact represents_canonicalInput textLength hitems fun _ hprior => by cases hprior
    exact ⟨hrepresents, ⟨h.input, h.signature, represents_setPrior h.priors hrepresents⟩, rfl⟩

theorem requestComparison_sound (textLength : Json → Nat) (arrays : ArrayIdentity) {p : PoolEntry}
    (h : TextsSound p) {body : Members} (hbody : ∀ item ∈ Body.input body, item.keysOnce = true) :
    (p.requestComparison textLength arrays body).Sound body := by
  have hturn : ∀ pair, (p.turnInput.bind fun input => p.turnCanonical.map fun canonical =>
      (input, canonical)) = some pair → pair.2.Represents pair.1 := by
    intro pair hpair
    obtain ⟨input, hinput, hmap⟩ := Option.bind_eq_some_iff.mp hpair
    obtain ⟨canonical, hcanonical, rfl⟩ := Option.map_eq_some_iff.mp hmap
    obtain ⟨input', hinput', hrepresents⟩ := h.turn canonical hcanonical
    obtain rfl : input = input' := Option.some.inj (hinput.symm.trans hinput')
    exact hrepresents
  have hchain : ∀ pair, (p.entry.continuation.bind fun prior =>
      p.continuationCanonical.map fun canonical => (prior.input, canonical)) = some pair →
        pair.2.Represents pair.1 := by
    intro pair hpair
    obtain ⟨prior, hprior, hmap⟩ := Option.bind_eq_some_iff.mp hpair
    obtain ⟨canonical, hcanonical, rfl⟩ := Option.map_eq_some_iff.mp hmap
    exact h.chain canonical prior hcanonical hprior
  have hprior : ∀ canonical, p.turnCanonical.or ((p.entry.continuation.bind fun prior =>
      p.continuationCanonical.map fun canonical => (prior.input, canonical)).map Prod.snd) =
        some canonical → ∃ input, canonical.Represents input := by
    intro canonical hcanonical
    rcases hcases : p.turnCanonical with _ | kept
    · rw [hcases, Option.none_or] at hcanonical
      obtain ⟨pair, hpair, rfl⟩ := Option.map_eq_some_iff.mp hcanonical
      exact ⟨pair.1, hchain pair hpair⟩
    · rw [hcases, Option.some_or] at hcanonical
      obtain rfl := Option.some.inj hcanonical
      obtain ⟨input, -, hrepresents⟩ := h.turn kept hcases
      exact ⟨input, hrepresents⟩
  have hinput := represents_canonicalInput textLength hbody hprior
  refine ⟨hinput, rfl, represents_setPrior (represents_foldl_setPrior ?_ (by simp)) hinput⟩
  intro pair hpair
  rcases List.mem_append.mp hpair with hpair | hpair
  · exact hturn pair (Option.mem_toList.mp hpair)
  · exact hchain pair (Option.mem_toList.mp hpair)

/-! ## One advance of the turn -/

/-- The turn's record of a body. -/
structure Records (p : PoolEntry) (body : Members) : Prop where
  turnID : p.turnID.isSome = true
  turnInput : p.turnInput = some (Body.input body)
  turnSignature : p.turnSignature = some (bodySignature body)

/-- The turn stands where `before` left it. -/
def Follows (before : Option Members) (p : PoolEntry) : Prop :=
  match before with
  | none => p.turnID = none ∧ p.turnInput = none
  | some before => Records p before

theorem extendsInput_self (body : Members) : extendsInput body body = true := by
  simp [extendsInput, List.isPrefixOf_iff_prefix]

/-- A body that was recorded before starts no turn. -/
theorem startsTurn_self (body : Members) : startsTurn (some body) body = false := by
  simp [startsTurn, addedItems, extendsInput_self]

/-- What is found of the last input: its length, where the signature is the same
and the input begins with it. -/
theorem turnPrefix_eq (textLength : Json → Nat) (arrays : ArrayIdentity) {p : PoolEntry}
    (h : TextsSound p) {comparison : RequestComparison} {body : Members}
    (hcomparison : comparison.Sound body) :
    (p.turnPrefix textLength arrays comparison).1 =
      (match p.turnInput with
        | some last =>
            if p.turnSignature = some (bodySignature body) ∧
                (last.map Json.stable).isPrefixOf ((Body.input body).map Json.stable) = true then
              some last.length
            else none
        | none => none) ∧
      (p.turnPrefix textLength arrays comparison).2.Sound body ∧
      (p.turnPrefix textLength arrays comparison).2.input = comparison.input := by
  unfold PoolEntry.turnPrefix
  rcases hlast : p.turnInput with _ | last
  · exact ⟨rfl, hcomparison, rfl⟩
  · simp only [hcomparison.signature]
    by_cases hsign : p.turnSignature = some (bodySignature body)
    · obtain ⟨hprior, hsound, hsame⟩ :=
        priorCanonical_sound textLength arrays hcomparison (h.items last hlast)
      simp only [hsign, if_true, true_and]
      refine ⟨?_, hsound, hsame⟩
      rw [hsame, canonicalPrefixLength_eq hprior hcomparison.input]
    · simp only [hsign, if_false, false_and, true_and]
      exact ⟨hcomparison, trivial⟩

/-- The sent body has the whole input, or the turn finds the last input in it. -/
def Carried (p : PoolEntry) (body request : Members) : Prop :=
  Body.input request = Body.input body ∨
    (Body.input? body).isSome = true ∧ ∃ last, p.turnInput = some last ∧
      p.turnSignature = some (bodySignature body) ∧
      (last.map Json.stable).isPrefixOf ((Body.input body).map Json.stable) = true

/-- What the turn is decided from. -/
def turnAdded (textLength : Json → Nat) (arrays : ArrayIdentity) (p : PoolEntry)
    (body request : Members) (comparison : RequestComparison) : List Json :=
  match (p.turnPrefix textLength arrays comparison).1 with
  | none => Body.input request
  | some length => ((Body.input? body).getD (Body.input request)).drop length

theorem fullInput_eq {p : PoolEntry} {body request : Members} (h : Carried p body request) :
    (Body.input? body).getD (Body.input request) = Body.input body := by
  rcases hinput : Body.input? body with _ | input
  · rcases h with hsame | ⟨hsome, -⟩
    · exact hsame
    · simp [hinput] at hsome
  · simp [Body.input, hinput]

/-- Trimmed or whole, the sent body starts a turn where the whole one does. -/
theorem turnAdded_eq (textLength : Json → Nat) (arrays : ArrayIdentity) {p : PoolEntry}
    (h : TextsSound p) {comparison : RequestComparison} {body request last : Members}
    (hcomparison : comparison.Sound body) (hrequest : Carried p body request)
    (hrecords : Records p last) :
    turnAdded textLength arrays p body request comparison = addedItems last body := by
  have hleads := (turnPrefix_eq textLength arrays h hcomparison).1
  simp only [hrecords.turnInput, hrecords.turnSignature, Option.some.injEq] at hleads
  change (p.turnPrefix textLength arrays comparison).1 =
    if bodySignature last = bodySignature body ∧ extendsInput last body = true then
      some (Body.input last).length
    else none at hleads
  unfold turnAdded addedItems
  rw [hleads]
  by_cases hextends : bodySignature last = bodySignature body ∧ extendsInput last body = true
  · rw [if_pos hextends]
    simp only [hextends.1, hextends.2, decide_true, Bool.and_self, if_true]
    rw [fullInput_eq hrequest]
  · rw [if_neg hextends]
    have hneg : (decide (bodySignature last = bodySignature body) && extendsInput last body) =
        false := by
      simpa using hextends
    simp only [hneg, Bool.false_eq_true, if_false]
    rcases hrequest with hsame | ⟨-, input, hinput, hsign, hbegins⟩
    · exact hsame
    · -- the turn would have found its last input
      rw [hrecords.turnInput] at hinput
      rw [hrecords.turnSignature] at hsign
      obtain rfl := Option.some.inj hinput
      exact absurd ⟨Option.some.inj hsign, hbegins⟩ hextends

/-- The turn was advanced for the body, from where `before` left it. -/
structure Advanced (before : Option Members) (id : Option Nat) (minted : Nat) (body : Members)
    (p : PoolEntry) : Prop where
  records : Records p body
  turnID : p.turnID = if startsTurn before body then some minted else id
  minted : p.minted = if startsTurn before body then minted + 1 else minted

/-- The turn was not advanced yet. -/
structure Waits (before : Option Members) (id : Option Nat) (minted : Nat) (p : PoolEntry) :
    Prop where
  follows : Follows before p
  turnID : p.turnID = id
  minted : p.minted = minted

namespace PoolEntry

section

variable (textLength : Json → Nat) (arrays : ArrayIdentity) (p : PoolEntry)
  (body request : Members) (comparison : RequestComparison)

theorem mintTurn_frame (isNewTurn : Bool) :
    (p.mintTurn isNewTurn).entry = p.entry ∧ (p.mintTurn isNewTurn).fallback = p.fallback ∧
    (p.mintTurn isNewTurn).answered = p.answered ∧
    (p.mintTurn isNewTurn).continuationCanonical = p.continuationCanonical := by
  unfold mintTurn
  split <;> exact ⟨rfl, rfl, rfl, rfl⟩

/-- The turn is all that an advance changes. -/
theorem advanceTurn_frame :
    (p.advanceTurn textLength arrays request body comparison).entry = p.entry ∧
    (p.advanceTurn textLength arrays request body comparison).fallback = p.fallback ∧
    (p.advanceTurn textLength arrays request body comparison).answered = p.answered ∧
    (p.advanceTurn textLength arrays request body comparison).continuationCanonical =
      p.continuationCanonical := by
  exact p.mintTurn_frame _

theorem advanceTurn_turnID :
    (p.advanceTurn textLength arrays request body comparison).turnID =
      (if (turnAdded textLength arrays p body request comparison).any isUserTurnMessage ||
          p.turnID.isNone then some p.minted else p.turnID) ∧
    (p.advanceTurn textLength arrays request body comparison).minted =
      (if (turnAdded textLength arrays p body request comparison).any isUserTurnMessage ||
          p.turnID.isNone then p.minted + 1 else p.minted) := by
  change (p.mintTurn ((turnAdded textLength arrays p body request comparison).any
      isUserTurnMessage)).turnID = _ ∧
    (p.mintTurn ((turnAdded textLength arrays p body request comparison).any
      isUserTurnMessage)).minted = _
  unfold mintTurn
  split <;> exact ⟨rfl, rfl⟩

end

variable (textLength : Json → Nat) (arrays : ArrayIdentity) {p : PoolEntry}
  {body request : Members} {comparison : RequestComparison}

theorem advanceTurn_records (h : TextsSound p) (hcomparison : comparison.Sound body)
    (hrequest : Carried p body request) :
    (p.advanceTurn textLength arrays request body comparison).turnInput =
      some (Body.input body) ∧
    (p.advanceTurn textLength arrays request body comparison).turnSignature =
      some (bodySignature body) ∧
    (p.advanceTurn textLength arrays request body comparison).turnCanonical =
      retainedInput comparison.input ∧
    ∀ after, (p.advanceTurn textLength arrays request body comparison).comparison = some after →
      after.Sound body := by
  obtain ⟨-, hsound, hsame⟩ := turnPrefix_eq textLength arrays h hcomparison
  have hfull := fullInput_eq hrequest
  unfold advanceTurn
  dsimp only
  refine ⟨congrArg some hfull, congrArg some hsound.signature, by rw [hsame], ?_⟩
  intro after hafter
  obtain rfl := Option.some.inj hafter
  refine ⟨hsound.input, hsound.signature, represents_setPrior hsound.priors ?_⟩
  rw [hfull]
  exact hsound.input

theorem textsSound_advanceTurn (h : TextsSound p) (hcomparison : comparison.Sound body)
    (hrequest : Carried p body request) (hbody : ∀ item ∈ Body.input body, item.keysOnce = true) :
    TextsSound (p.advanceTurn textLength arrays request body comparison) := by
  obtain ⟨hinput, -, hcanonical, -⟩ :=
    advanceTurn_records textLength arrays h hcomparison hrequest
  obtain ⟨hentry, -, -, hkept⟩ := advanceTurn_frame textLength arrays p body request comparison
  constructor
  · intro input hsome
    rw [hinput] at hsome
    obtain rfl := Option.some.inj hsome
    exact hbody
  · intro canonical hsome
    rw [hcanonical] at hsome
    refine ⟨Body.input body, hinput, ?_⟩
    rw [retainedInput_eq_some hsome]
    exact hcomparison.input
  · intro canonical prior hsome hprior
    rw [hkept] at hsome
    rw [hentry] at hprior
    exact h.chain canonical prior hsome hprior

theorem Follows.decides {before : Option Members} (h : TextsSound p)
    (hcomparison : comparison.Sound body) (hrequest : Carried p body request)
    (hfollows : Follows before p) :
    ((turnAdded textLength arrays p body request comparison).any isUserTurnMessage ||
      p.turnID.isNone) = startsTurn before body := by
  cases before with
  | none =>
      have hnone : p.turnID = none := hfollows.1
      simp [hnone, startsTurn]
  | some last =>
      have hrecords : Records p last := hfollows
      have hsome : p.turnID.isNone = false := by
        simpa using hrecords.turnID
      rw [turnAdded_eq textLength arrays h hcomparison hrequest hrecords, hsome, Bool.or_false]
      rfl

/-- An advance is made once for a body, however often it is repeated. -/
theorem advanced_advanceTurn {before : Option Members} {id : Option Nat} {minted : Nat}
    (h : TextsSound p) (hcomparison : comparison.Sound body) (hrequest : Carried p body request)
    (hturn : Waits before id minted p ∨ Advanced before id minted body p) :
    Advanced before id minted body
      (p.advanceTurn textLength arrays request body comparison) := by
  obtain ⟨hinput, hsign, -, -⟩ :=
    advanceTurn_records textLength arrays h hcomparison hrequest
  obtain ⟨hid, hminted⟩ := advanceTurn_turnID textLength arrays p body request comparison
  rcases hturn with hwaits | hadvanced
  · have hdecides := Follows.decides textLength arrays h hcomparison hrequest hwaits.follows
    rw [hdecides, hwaits.turnID, hwaits.minted] at hid
    rw [hdecides, hwaits.minted] at hminted
    refine ⟨⟨?_, hinput, hsign⟩, hid, hminted⟩
    rw [hid]
    split
    · rfl
    · -- no turn starts only where one was recorded
      rcases before with _ | last
      · simp [startsTurn] at *
      · have hrecords : Records p last := hwaits.follows
        rw [← hwaits.turnID]
        exact hrecords.turnID
  · have hfollows : Follows (some body) p := hadvanced.records
    have hdecides := Follows.decides textLength arrays h hcomparison hrequest hfollows
    rw [hdecides, startsTurn_self] at hid hminted
    refine ⟨⟨?_, hinput, hsign⟩, ?_, ?_⟩
    · rw [hid]
      exact hadvanced.records.turnID
    · rw [hid]
      exact hadvanced.turnID
    · rw [hminted]
      exact hadvanced.minted

end PoolEntry

/-! ## Steps of the entry under one request -/

/-- The continuation was saved with the body. -/
structure SavedFor (prior : Continuation) (body : Members) : Prop where
  input : prior.input = Body.input body
  signature : prior.signature = bodySignature body

/-- Where the request for a body may stand; `applied` says that its turn was. -/
def RequestPhase (body : Members) (applied : Prop) : Phase → Prop
  | .idle => True
  | .connecting b | .prewarmed b => b = body
  | .prewarmComposed b request => b = body ∧ request = prewarmBody body
  | .prewarming b request stream =>
      b = body ∧ request = prewarmBody body ∧ CollectsFinalized stream
  | .composed b _ => b = body ∧ applied
  | .streaming b _ stream => b = body ∧ applied ∧ CollectsFinalized stream

/-- A chain is kept, dropped or started by a prewarm, or saved with the body. -/
structure Moves (w w' : Entry) (body : Members) (applied : Prop) : Prop where
  phase : RequestPhase body applied w'.phase
  composed : composed? w w' = none
  chain : ∀ prior, w'.continuation = some prior →
    w.continuation = some prior ∨ prior.input = [] ∨ applied ∧ SavedFor prior body

/-- The main request is composed. -/
def Composes (w w' : Entry) (body : Members) : Prop :=
  ∃ continuation, (continuation = w.continuation ∨ continuation = none) ∧
    w'.continuation = (withContinuation continuation body).2 ∧
    w'.phase = .composed body (withContinuation continuation body).1 ∧
    composed? w w' = some (withContinuation continuation body).1

theorem composed?_eq_none {w w' : Entry}
    (h : ∀ body request, w'.phase ≠ .composed body request) : composed? w w' = none := by
  unfold composed?
  split
  case h_1 hw hw' => exact absurd hw' (h _ _)
  case h_2 hw hw' => exact absurd hw' (h _ _)
  case h_3 => rfl

section

variable {w : Entry} {body request : Members} {applied : Prop} {stream stream' : State}

/-- Nothing happens to the entry. -/
theorem Moves.stays (h : RequestPhase body applied w.phase) : Moves w w body applied := by
  refine ⟨h, ?_, fun prior hprior => .inl hprior⟩
  unfold composed?
  split
  case h_1 hw hw' =>
    rw [hw] at hw'
    cases hw'
  case h_2 hw hw' =>
    rw [hw] at hw'
    cases hw'
  case h_3 => rfl

theorem Moves.caught : Moves w w.caught body applied :=
  ⟨trivial, composed?_eq_none (fun _ _ h => by cases h), (fun _ hprior => by cases hprior)⟩

/-- A step of the main stream. -/
theorem Moves.mainStep {sent : Entry} (happlied : applied)
    (hcontinuation : sent.continuation = w.continuation)
    (hstream : ((∃ news, stream'.callbacks = stream.callbacks ++ news ∧
        ∀ event ids, Callback.onComplete event ids ∉ news) ∧ CollectsFinalized stream') ∨
      State.Completes stream stream') :
    Moves w (sent.mainStep body request stream stream') body applied := by
  unfold Entry.mainStep
  dsimp only
  rcases reports_shape hstream with
    ⟨hsame, hcollects⟩ | ⟨hcompleted, w', -, event, ids, -, hreports⟩
  · have hchain : ∀ prior,
        (sent.reports body request (Body.previousResponseID? request).isSome stream
          stream').continuation = some prior → w.continuation = some prior := by
      intro prior hprior
      rcases hsame with heq | heq <;> rw [heq] at hprior
      · exact hcontinuation ▸ hprior
      · cases hprior
    split
    · exact ⟨trivial, composed?_eq_none (fun _ _ h => by cases h),
        fun prior hprior => .inl (hchain prior hprior)⟩
    · exact ⟨⟨rfl, happlied, hcollects⟩, composed?_eq_none (fun _ _ h => by cases h),
        fun prior hprior => .inl (hchain prior hprior)⟩
  · rw [if_pos hcompleted, hreports]
    refine ⟨trivial, composed?_eq_none (fun _ _ h => by cases h), fun prior hprior => ?_⟩
    obtain ⟨-, hinput, hsign⟩ := updateContinuation_saved hprior
    exact .inr (.inr ⟨happlied, by simp [Body.input, hinput], hsign⟩)

/-- A step of the prewarm's stream. -/
theorem Moves.prewarmStep {sent : Entry} (hcontinuation : sent.continuation = w.continuation)
    (hrequest : request = prewarmBody body)
    (hstream : ((∃ news, stream'.callbacks = stream.callbacks ++ news ∧
        ∀ event ids, Callback.onComplete event ids ∉ news) ∧ CollectsFinalized stream') ∨
      State.Completes stream stream') :
    Moves w (sent.prewarmStep body request stream stream') body applied := by
  unfold Entry.prewarmStep
  dsimp only
  rcases reports_shape hstream with
    ⟨hsame, hcollects⟩ | ⟨hcompleted, w', -, event, ids, -, hreports⟩
  · have hchain : ∀ prior,
        (sent.reports request request false stream stream').continuation = some prior →
          w.continuation = some prior := by
      intro prior hprior
      rcases hsame with heq | heq <;> rw [heq] at hprior
      · exact hcontinuation ▸ hprior
      · cases hprior
    split
    · split
      · exact ⟨rfl, composed?_eq_none (fun _ _ h => by cases h),
          fun prior hprior => .inl (hchain prior hprior)⟩
      · exact ⟨trivial, composed?_eq_none (fun _ _ h => by cases h),
          (fun _ hprior => by cases hprior)⟩
    · exact ⟨⟨rfl, hrequest, hcollects⟩, composed?_eq_none (fun _ _ h => by cases h),
        fun prior hprior => .inl (hchain prior hprior)⟩
  · rw [if_pos hcompleted, hreports]
    split
    · refine ⟨rfl, composed?_eq_none (fun _ _ h => by cases h), fun prior hprior => ?_⟩
      obtain ⟨-, hinput, -⟩ := updateContinuation_saved hprior
      rw [hrequest, input_prewarmBody] at hinput
      exact .inr (.inl (Option.some.inj hinput).symm)
    · exact ⟨trivial, composed?_eq_none (fun _ _ h => by cases h),
        (fun _ hprior => by cases hprior)⟩

theorem moves_connected {opened : Entry} (hphase : w.phase = .connecting body)
    (hopened : opened.continuation = w.continuation ∨ opened.continuation = none) :
    Moves w (opened.connected body) body applied ∨ Composes w (opened.connected body) body := by
  unfold Entry.connected
  split
  · left
    refine ⟨⟨rfl, rfl⟩, composed?_eq_none (fun _ _ h => by cases h), fun prior hprior => ?_⟩
    rcases hopened with heq | heq
    · exact .inl (heq ▸ hprior)
    · have hprior' : opened.continuation = some prior := hprior
      rw [heq] at hprior'
      cases hprior'
  · right
    exact ⟨opened.continuation, hopened, rfl, rfl, by simp [composed?, hphase, Entry.compose]⟩

/-- Each step of the request moves the entry on or composes the main request. -/
theorem moves_step (js : Builtins) (h : RequestPhase body applied w.phase) (c : Choice)
    (hfetch : ∀ b, c ≠ .fetch b) (hhttp : ∀ b, c ≠ .sendHttp b) (hdrop : c ≠ .drop) :
    Moves w (step js w c) body applied ∨ Composes w (step js w c) body := by
  have hstays := Moves.stays h
  rcases c with b | b | reused | _ | socket | e | _ | _ | _
  case fetch => exact absurd rfl (hfetch b)
  case sendHttp => exact absurd rfl (hhttp b)
  case connect =>
    rcases hp : w.phase with _ | b | _ | _ | _ | _ | _ <;> simp only [step, hp]
    case connecting =>
      rw [hp] at h
      obtain rfl : b = body := h
      rcases reused with _ | _
      · exact moves_connected hp (.inr rfl)
      · exact moves_connected hp (.inl rfl)
    all_goals exact .inl hstays
  case connectFails =>
    rcases hp : w.phase <;> simp only [step, hp]
    case connecting => exact .inl Moves.caught
    all_goals exact .inl hstays
  case send =>
    rcases hp : w.phase with _ | _ | ⟨b, request⟩ | _ | _ | ⟨b, request⟩ | _ <;>
      simp only [step, hp]
    case prewarmComposed =>
      rw [hp] at h
      obtain ⟨rfl, hrequest⟩ : b = body ∧ request = prewarmBody body := h
      left
      split
      · exact Moves.prewarmStep rfl hrequest (start_reports socket)
      · exact Moves.prewarmStep rfl hrequest (start_reports socket)
    case composed =>
      rw [hp] at h
      obtain ⟨rfl, happlied⟩ : b = body ∧ applied := h
      left
      split
      · exact Moves.mainStep happlied rfl (start_reports socket)
      · exact Moves.mainStep happlied rfl (start_reports socket)
    all_goals exact .inl hstays
  case receive =>
    rcases hp : w.phase with _ | _ | _ | ⟨b, request, stream⟩ | _ | _ | ⟨b, request, stream⟩ <;>
      simp only [step, hp]
    case prewarming =>
      rw [hp] at h
      obtain ⟨rfl, hrequest, hcollects⟩ : b = body ∧ request = prewarmBody body ∧
        CollectsFinalized stream := h
      exact .inl (Moves.prewarmStep rfl hrequest (receive_reports _ hcollects e))
    case streaming =>
      rw [hp] at h
      obtain ⟨rfl, happlied, hcollects⟩ : b = body ∧ applied ∧ CollectsFinalized stream := h
      exact .inl (Moves.mainStep happlied rfl (receive_reports _ hcollects e))
    all_goals exact .inl hstays
  case compose =>
    rcases hp : w.phase with _ | _ | _ | _ | b | _ | _ <;> simp only [step, hp]
    case prewarmed =>
      rw [hp] at h
      obtain rfl : b = body := h
      exact .inr ⟨w.continuation, .inl rfl, rfl, rfl, by simp [composed?, hp, Entry.compose]⟩
    all_goals exact .inl hstays
  case abort =>
    rcases hp : w.phase <;> simp only [step, hp]
    case idle => exact .inl hstays
    all_goals exact .inl Moves.caught
  case drop => exact absurd rfl hdrop

theorem step_of_idle (js : Builtins) (h : w.phase.isIdle = true) (c : Choice)
    (hfetch : ∀ b, c ≠ .fetch b) (hhttp : ∀ b, c ≠ .sendHttp b) (hdrop : c ≠ .drop) :
    step js w c = w := by
  have hphase : w.phase = .idle := by
    rcases hp : w.phase <;> simp only [hp] at h
    case idle => rfl
    all_goals cases h
  rcases c with b | b | reused | _ | socket | e | _ | _ | _
  case fetch => exact absurd rfl (hfetch b)
  case sendHttp => exact absurd rfl (hhttp b)
  case drop => exact absurd rfl hdrop
  all_goals simp only [step, hphase]

/-- The response that answers the request is saved with its body, or not at all. -/
theorem saved_of_answers (js : Builtins) (h : RequestPhase body applied w.phase) {c : Choice}
    (hanswers : answers js w c = true) :
    (step js w c).phase.isIdle = true ∧ applied ∧
      ∀ prior, (step js w c).continuation = some prior → SavedFor prior body := by
  unfold answers at hanswers
  split at hanswers
  case h_1 b request stream e hp =>
    rw [hp] at h
    obtain ⟨rfl, happlied, hcollects⟩ : b = body ∧ applied ∧ CollectsFinalized stream := h
    simp only [Bool.and_eq_true, decide_eq_true_eq] at hanswers
    simp only [step, hp]
    unfold Entry.mainStep
    dsimp only
    rcases receive_closes (streamOptions js) hcollects hanswers.1 e hanswers.2 with
      hdrops | hcompletes
    · obtain ⟨news, hnews, hnone, hdrop⟩ := hdrops.callbacks
      rw [if_pos hdrops.completed]
      refine ⟨rfl, happlied, fun prior hprior => ?_⟩
      have hleft : (w.reports b request (Body.previousResponseID? request).isSome stream
          (receive (streamOptions js) stream e)).continuation = none := by
        unfold Entry.reports
        rw [hnews, List.drop_left]
        exact Entry.foldl_report_drops _ _ _ _ _ hnone hdrop
      have hprior' : (w.reports b request (Body.previousResponseID? request).isSome stream
          (receive (streamOptions js) stream e)).continuation = some prior := hprior
      rw [hleft] at hprior'
      cases hprior'
    · obtain ⟨w', -, event, ids, -, hreports⟩ := reports_of_completes hcompletes
      rw [if_pos hcompletes.completed, hreports]
      refine ⟨rfl, happlied, fun prior hprior => ?_⟩
      obtain ⟨-, hinput, hsign⟩ := updateContinuation_saved hprior
      exact ⟨by simp [Body.input, hinput], hsign⟩
  case h_2 => cases hanswers

end

/-! ## One body, with all its attempts -/

/-- What holds while a body is sent, from where the one before left the turn. -/
structure Sending (before : Option Members) (id : Option Nat) (minted : Nat) (body : Members)
    (p : PoolEntry) : Prop where
  turn : Waits before id minted p ∨ Advanced before id minted body p
  chain : p.fallback = true ∨ ∀ prior, p.entry.continuation = some prior → prior.input ≠ [] →
    (∃ last, before = some last ∧ SavedFor prior last) ∨
      Advanced before id minted body p ∧ SavedFor prior body
  phase : RequestPhase body (Advanced before id minted body p) p.entry.phase
  asked : p.entry.phase.isIdle = false → p.comparison.isSome = true
  comparison : ∀ comparison, p.comparison = some comparison → comparison.Sound body
  fallback : p.fallback = true → p.entry.phase.isIdle = true
  answered : p.answered = true → p.entry.phase.isIdle = true ∧
    Advanced before id minted body p ∧ (p.fallback = true ∨
      ∀ prior, p.entry.continuation = some prior → prior.input ≠ [] → SavedFor prior body)
  texts : TextsSound p

section

variable {textLength : Json → Nat} {arrays : ArrayIdentity} {before : Option Members}
  {id : Option Nat} {minted : Nat} {body request : Members} {p : PoolEntry}

theorem RequestPhase.of_idle {applied : Prop} {phase : Phase} (h : phase.isIdle = true) :
    RequestPhase body applied phase := by
  cases phase with
  | idle => trivial
  | _ => cases h

theorem RequestPhase.mono {applied applied' : Prop} {phase : Phase}
    (h : RequestPhase body applied phase) (himp : applied → applied') :
    RequestPhase body applied' phase := by
  cases phase with
  | composed b request => exact ⟨h.1, himp h.2⟩
  | streaming b request stream => exact ⟨h.1, himp h.2.1, h.2.2⟩
  | _ => exact h

/-- The turn of one entry is that of another. -/
structure SameTurn (p q : PoolEntry) : Prop where
  turnID : q.turnID = p.turnID
  turnInput : q.turnInput = p.turnInput
  turnSignature : q.turnSignature = p.turnSignature
  minted : q.minted = p.minted

theorem Records.of_same {q : PoolEntry} (h : Records p body) (hsame : SameTurn p q) :
    Records q body := by
  constructor
  · rw [hsame.turnID]
    exact h.turnID
  · rw [hsame.turnInput]
    exact h.turnInput
  · rw [hsame.turnSignature]
    exact h.turnSignature

theorem Advanced.of_same {q : PoolEntry} (h : Advanced before id minted body p)
    (hsame : SameTurn p q) : Advanced before id minted body q := by
  constructor
  · exact h.records.of_same hsame
  · rw [hsame.turnID]
    exact h.turnID
  · rw [hsame.minted]
    exact h.minted

theorem Waits.of_same {q : PoolEntry} (h : Waits before id minted p) (hsame : SameTurn p q) :
    Waits before id minted q := by
  constructor
  · cases before with
    | none =>
        have hfollows : p.turnID = none ∧ p.turnInput = none := h.follows
        exact ⟨hsame.turnID.trans hfollows.1, hsame.turnInput.trans hfollows.2⟩
    | some last =>
        have hrecords : Records p last := h.follows
        exact hrecords.of_same hsame
  · rw [hsame.turnID]
    exact h.turnID
  · rw [hsame.minted]
    exact h.minted

/-- The request goes over HTTP, now and from now on. -/
theorem Sending.overHttp (textLength : Json → Nat) (arrays : ArrayIdentity)
    (h : Sending before id minted body p) (hidle : p.entry.phase.isIdle = true)
    {comparison : RequestComparison} (hcomparison : comparison.Sound body)
    (hbody : ∀ item ∈ Body.input body, item.keysOnce = true) {fallback : Bool}
    (hfallback : fallback = true) :
    Sending before id minted body
      { p.advanceTurn textLength arrays body body comparison with
        fallback
        answered := true } := by
  have hcarried : Carried p body body := .inl rfl
  obtain ⟨hentry, -, -, hkept⟩ := p.advanceTurn_frame textLength arrays body body comparison
  obtain ⟨-, -, -, hafter⟩ :=
    PoolEntry.advanceTurn_records textLength arrays h.texts hcomparison hcarried
  have hadvanced : Advanced before id minted body
      { p.advanceTurn textLength arrays body body comparison with
        fallback
        answered := true } :=
    (PoolEntry.advanced_advanceTurn textLength arrays h.texts hcomparison hcarried h.turn).of_same
      ⟨rfl, rfl, rfl, rfl⟩
  have htexts := PoolEntry.textsSound_advanceTurn textLength arrays h.texts hcomparison hcarried
    hbody
  have hidle' : (p.advanceTurn textLength arrays body body comparison).entry.phase.isIdle =
      true := by
    rw [hentry]
    exact hidle
  constructor
  · exact .inr hadvanced
  · exact .inl hfallback
  · exact RequestPhase.of_idle hidle'
  · intro hbusy
    have hidle'' : (p.advanceTurn textLength arrays body body comparison).entry.phase.isIdle =
        false := hbusy
    rw [hidle'] at hidle''
    cases hidle''
  · exact hafter
  · exact fun _ => hidle'
  · exact fun _ => ⟨hidle', hadvanced, .inl hfallback⟩
  · exact ⟨htexts.items, htexts.turn, htexts.chain⟩

/-- What is saved for the next request keeps the texts of its own input. -/
theorem textsSound_keepCanonical (h : TextsSound p) {entry : Entry}
    (hcomparison : ∀ comparison, p.comparison = some comparison → comparison.Sound body)
    (hchain : ∀ prior, entry.continuation = some prior →
      p.entry.continuation = some prior ∨ prior.input = [] ∨ SavedFor prior body)
    (answered : Bool) :
    TextsSound
      { p with
        entry
        continuationCanonical := p.keepCanonical textLength entry.continuation
        answered } := by
  refine ⟨h.items, h.turn, fun canonical prior hcanonical hprior => ?_⟩
  have hprior' : entry.continuation = some prior := hprior
  have hkept : p.keepCanonical textLength entry.continuation = some canonical := hcanonical
  unfold PoolEntry.keepCanonical at hkept
  simp only [hprior'] at hkept
  split at hkept
  case isTrue hsame => exact h.chain canonical prior hkept hsame
  case isFalse hnew =>
    split at hkept
    case isTrue hempty =>
      rw [retainedInput_eq_some hkept, hempty]
      exact represents_canonicalInput textLength (by simp) (fun _ hnone => by cases hnone)
    case isFalse hnonempty =>
      obtain ⟨comparison, hsome, hretained⟩ := Option.bind_eq_some_iff.mp hkept
      rw [retainedInput_eq_some hretained]
      rcases hchain prior hprior' with hold | hempty | hsaved
      · exact absurd hold hnew
      · exact absurd hempty hnonempty
      · rw [hsaved.input]
        exact (hcomparison comparison hsome).input

/-- What is sent is the whole input, or the turn knows what it was cut from. -/
theorem carried_compose (h : Sending before id minted body p)
    (hbusy : p.entry.phase.isIdle = false) {continuation : Option Continuation}
    (hcontinuation : continuation = p.entry.continuation ∨ continuation = none) :
    Carried p body (withContinuation continuation body).1 := by
  rcases withContinuation_request continuation body with
    hfull | ⟨prior, hnamed⟩ | ⟨prior, hprior, hchains, -⟩
  · left
    rw [hfull]
  · left
    rw [hnamed]
    simp only [Body.input, Body.input?]
    rw [Members.lookup_set_of_ne (by decide)]
  right
  simp only [chains, Bool.and_eq_true, decide_eq_true_eq] at hchains
  obtain ⟨⟨⟨hsign, hextends⟩, hnonempty⟩, -⟩ := hchains
  have hextends' := hextends
  simp only [hasContinuationPrefix, Bool.and_eq_true, decide_eq_true_eq] at hextends'
  have hsome : (Body.input? body).isSome = true := by
    rcases hinput : Body.input? body with _ | input
    · have hlength := hextends'.1
      simp [Body.input, hinput] at hlength
    · rfl
  refine ⟨hsome, ?_⟩
  have hself : Advanced before id minted body p → ∃ last, p.turnInput = some last ∧
      p.turnSignature = some (bodySignature body) ∧
        (last.map Json.stable).isPrefixOf ((Body.input body).map Json.stable) = true :=
    fun hadvanced => ⟨_, hadvanced.records.turnInput, hadvanced.records.turnSignature,
      extendsInput_self body⟩
  rcases h.turn with hwaits | hadvanced
  · have hentry : p.entry.continuation = some prior := by
      rcases hcontinuation with hsame | hnone
      · rw [← hsame, hprior]
      · rw [hnone] at hprior
        cases hprior
    rcases h.chain with hfallback | hchain
    · have hidle := h.fallback hfallback
      rw [hbusy] at hidle
      cases hidle
    rcases hchain prior hentry hnonempty with ⟨last, rfl, hsaved⟩ | ⟨hadvanced, -⟩
    · have hrecords : Records p last := hwaits.follows
      refine ⟨prior.input, ?_, ?_, hextends'.2⟩
      · rw [hrecords.turnInput, hsaved.input]
      · rw [hrecords.turnSignature, ← hsaved.signature, hsign]
    · exact hself hadvanced
  · exact hself hadvanced

theorem Sending.socketStep (js : Builtins) (h : Sending before id minted body p) {raw : Members}
    (hraw : normalizeResponseBody raw = body)
    (hbody : ∀ item ∈ Body.input body, item.keysOnce = true) (c : Choice)
    (hfetch : ∀ b, c ≠ .fetch b) (hhttp : ∀ b, c ≠ .sendHttp b) (hdrop : c ≠ .drop) :
    Sending before id minted body (p.socketStep textLength js raw c arrays) := by
  have hstays := fun hidle => @step_of_idle p.entry js hidle c hfetch hhttp hdrop
  rcases moves_step js h.phase c hfetch hhttp hdrop with
    hmoves | ⟨continuation, hcontinuation, hafter, hphase, hcomposed⟩
  · have hstep : p.socketStep textLength js raw c arrays =
        { p with
          entry := step js p.entry c
          continuationCanonical :=
            p.keepCanonical textLength (step js p.entry c).continuation
          answered := p.answered || answers js p.entry c } := by
      unfold PoolEntry.socketStep
      simp only [hmoves.composed]
    have hadvanced : Advanced before id minted body p →
        Advanced before id minted body (p.socketStep textLength js raw c arrays) := by
      intro hadvanced
      rw [hstep]
      exact hadvanced.of_same ⟨rfl, rfl, rfl, rfl⟩
    rw [hstep] at hadvanced ⊢
    constructor
    · exact h.turn.imp (fun hwaits => hwaits.of_same ⟨rfl, rfl, rfl, rfl⟩) hadvanced
    · refine h.chain.imp_right fun hchain prior hprior hnonempty => ?_
      rcases hmoves.chain prior hprior with hold | hempty | ⟨hadv, hsaved⟩
      · exact (hchain prior hold hnonempty).imp_right fun hnew => ⟨hadvanced hnew.1, hnew.2⟩
      · exact absurd hempty hnonempty
      · exact .inr ⟨hadvanced hadv, hsaved⟩
    · exact hmoves.phase.mono hadvanced
    · intro hbusy
      refine h.asked ?_
      by_contra hidle
      have hsame := hstays (by simpa using hidle)
      have hbusy' : (step js p.entry c).phase.isIdle = false := hbusy
      rw [hsame] at hbusy'
      exact hidle hbusy'
    · exact h.comparison
    · intro hfallback
      show (step js p.entry c).phase.isIdle = true
      rw [hstays (h.fallback hfallback)]
      exact h.fallback hfallback
    · intro hanswered
      rcases Bool.or_eq_true_iff.mp hanswered with hold | hnew
      · obtain ⟨hidle, hadv, hsaved⟩ := h.answered hold
        refine ⟨?_, hadvanced hadv, hsaved.imp_right fun hsaved prior hprior => ?_⟩
        · show (step js p.entry c).phase.isIdle = true
          rw [hstays hidle]
          exact hidle
        · have hprior' : (step js p.entry c).continuation = some prior := hprior
          rw [hstays hidle] at hprior'
          exact hsaved prior hprior'
      · obtain ⟨hidle, hadv, hsaved⟩ := saved_of_answers js h.phase hnew
        exact ⟨hidle, hadvanced hadv, .inr fun prior hprior _ => hsaved prior hprior⟩
    · refine textsSound_keepCanonical h.texts h.comparison (fun prior hprior => ?_) _
      exact (hmoves.chain prior hprior).imp_right fun hnew => hnew.imp_right And.right
  · -- the main request is composed
    have hold : (∃ b, p.entry.phase = .connecting b) ∨ ∃ b, p.entry.phase = .prewarmed b := by
      unfold composed? at hcomposed
      split at hcomposed
      case h_1 b _ _ hp _ => exact .inl ⟨b, hp⟩
      case h_2 b _ _ hp _ => exact .inr ⟨b, hp⟩
      case h_3 => cases hcomposed
    have hbusy : p.entry.phase.isIdle = false := by
      rcases hold with ⟨b, hp⟩ | ⟨b, hp⟩ <;> rw [hp] <;> rfl
    have hsilent : answers js p.entry c = false := by
      rcases hold with ⟨b, hp⟩ | ⟨b, hp⟩ <;> simp [answers, hp]
    have hnotAnswered : p.answered = false := by
      by_contra hanswered
      have hidle := (h.answered (by simpa using hanswered)).1
      rw [hbusy] at hidle
      cases hidle
    obtain ⟨comparison, hsome⟩ := Option.isSome_iff_exists.mp (h.asked hbusy)
    have hsound := h.comparison comparison hsome
    set q : PoolEntry :=
      { p with
        entry := step js p.entry c
        continuationCanonical := p.keepCanonical textLength (step js p.entry c).continuation
        answered := p.answered || answers js p.entry c } with hq
    have hstep : p.socketStep textLength js raw c arrays =
        q.advanceTurn textLength arrays (withContinuation continuation body).1 body
          comparison := by
      unfold PoolEntry.socketStep
      simp only [hcomposed, hsome, hraw, hq]
    have hcarried : Carried q body (withContinuation continuation body).1 :=
      carried_compose h hbusy hcontinuation
    have hchain : ∀ prior, (step js p.entry c).continuation = some prior →
        p.entry.continuation = some prior := by
      intro prior hprior
      rw [hafter] at hprior
      have hkept : continuation = some prior := by
        rcases withContinuation_kept continuation body with hkept | hnone
        · rw [← hkept, hprior]
        · rw [hnone] at hprior
          cases hprior
      rcases hcontinuation with hsame | hnone
      · rw [← hsame, hkept]
      · rw [hnone] at hkept
        cases hkept
    have htexts : TextsSound q :=
      textsSound_keepCanonical h.texts h.comparison
        (fun prior hprior => .inl (hchain prior hprior)) _
    have hturn : Waits before id minted q ∨ Advanced before id minted body q :=
      h.turn.imp (fun hwaits => hwaits.of_same ⟨rfl, rfl, rfl, rfl⟩)
        (fun hadvanced => hadvanced.of_same ⟨rfl, rfl, rfl, rfl⟩)
    have hadvanced :=
      PoolEntry.advanced_advanceTurn textLength arrays htexts hsound hcarried hturn
    obtain ⟨hentry, hfallback, hanswered, -⟩ := q.advanceTurn_frame textLength arrays body
      (withContinuation continuation body).1 comparison
    obtain ⟨-, -, -, hcomparison⟩ :=
      PoolEntry.advanceTurn_records textLength arrays htexts hsound hcarried
    rw [hstep]
    constructor
    · exact .inr hadvanced
    · rw [hfallback, hentry]
      refine h.chain.imp_right fun hold prior hprior hnonempty => ?_
      exact (hold prior (hchain prior hprior) hnonempty).imp_right fun hnew =>
        ⟨hadvanced, hnew.2⟩
    · rw [hentry]
      show RequestPhase body _ (step js p.entry c).phase
      rw [hphase]
      exact ⟨rfl, hadvanced⟩
    · exact fun _ => rfl
    · exact hcomparison
    · rw [hfallback]
      intro hfallen
      have hidle := h.fallback hfallen
      rw [hbusy] at hidle
      cases hidle
    · rw [hanswered]
      intro hanswered'
      have hnone : q.answered = false := by simp [hq, hnotAnswered, hsilent]
      rw [hnone] at hanswered'
      cases hanswered'
    · exact PoolEntry.textsSound_advanceTurn textLength arrays htexts hsound hcarried hbody

theorem phase_eq_idle {phase : Phase} (h : phase.isIdle = true) : phase = .idle := by
  cases phase with
  | idle => rfl
  | _ => cases h

theorem Sending.fetch (js : Builtins) (h : Sending before id minted body p) {raw : Members}
    (hraw : normalizeResponseBody raw = body)
    (hbody : ∀ item ∈ Body.input body, item.keysOnce = true) :
    Sending before id minted body (p.step textLength js raw (.fetch arrays)) := by
  simp only [PoolEntry.step]
  split
  case isTrue => exact h
  case isFalse hfree =>
    simp only [Bool.or_eq_true, Bool.not_eq_true', not_or, Bool.not_eq_true,
      Bool.not_eq_false] at hfree
    obtain ⟨hanswered, hidle⟩ := hfree
    have hsound := requestComparison_sound textLength arrays h.texts hbody
    rw [hraw]
    split
    case isTrue hfallback =>
      have hkept := (p.advanceTurn_frame textLength arrays body body
        (p.requestComparison textLength arrays body)).2.1
      exact h.overHttp textLength arrays hidle hsound hbody (hkept.trans hfallback)
    case isFalse hfallback =>
      have hidle' := phase_eq_idle hidle
      have hfetched : WebSocket.step js p.entry (.fetch raw) =
          { p.entry with phase := .connecting body } := by
        simp only [WebSocket.step, hidle', hraw]
      rw [hfetched]
      constructor
      · exact h.turn.imp (fun hwaits => hwaits.of_same ⟨rfl, rfl, rfl, rfl⟩)
          (fun hadvanced => hadvanced.of_same ⟨rfl, rfl, rfl, rfl⟩)
      · refine h.chain.imp_right fun hchain prior hprior hnonempty => ?_
        exact (hchain prior hprior hnonempty).imp_right fun hnew =>
          ⟨hnew.1.of_same ⟨rfl, rfl, rfl, rfl⟩, hnew.2⟩
      · exact rfl
      · exact fun _ => rfl
      · intro comparison hcomparison
        obtain rfl := Option.some.inj hcomparison
        exact hsound
      · exact fun hfallen => absurd hfallen hfallback
      · intro hanswered'
        have hnone : p.answered = true := hanswered'
        rw [hanswered] at hnone
        cases hnone
      · exact ⟨h.texts.items, h.texts.turn, h.texts.chain⟩

theorem Sending.giveUp (js : Builtins) (h : Sending before id minted body p) (raw : Members) :
    Sending before id minted body (p.step textLength js raw .giveUp) := by
  simp only [PoolEntry.step]
  split
  case isTrue => exact h
  case isFalse hfree =>
    simp only [Bool.or_eq_true, Bool.not_eq_true', not_or, Bool.not_eq_true,
      Bool.not_eq_false] at hfree
    obtain ⟨⟨hanswered, hidle⟩, -⟩ := hfree
    constructor
    · exact h.turn.imp (fun hwaits => hwaits.of_same ⟨rfl, rfl, rfl, rfl⟩)
        (fun hadvanced => hadvanced.of_same ⟨rfl, rfl, rfl, rfl⟩)
    · exact .inl rfl
    · exact RequestPhase.of_idle hidle
    · exact h.asked
    · exact h.comparison
    · exact fun _ => hidle
    · intro hanswered'
      have hnone : p.answered = true := hanswered'
      rw [hanswered] at hnone
      cases hnone
    · exact ⟨h.texts.items, h.texts.turn, h.texts.chain⟩

theorem Sending.step (js : Builtins) (h : Sending before id minted body p) {raw : Members}
    (hraw : normalizeResponseBody raw = body)
    (hbody : ∀ item ∈ Body.input body, item.keysOnce = true) (c : SendStep) :
    Sending before id minted body (p.step textLength js raw c) := by
  cases c with
  | fetch arrays => exact h.fetch js hraw hbody
  | giveUp => exact h.giveUp js raw
  | socket c arrays =>
      cases c
      case fetch => exact h
      case sendHttp => exact h
      case drop => exact h
      all_goals
        exact h.socketStep js hraw hbody _ (fun _ heq => by cases heq) (fun _ heq => by cases heq)
          (fun heq => by cases heq)
  | http arrays =>
      simp only [PoolEntry.step]
      split
      case isTrue => exact h
      case isFalse hfree =>
        simp only [Bool.or_eq_true, Bool.not_eq_true', not_or, Bool.not_eq_true,
          Bool.not_eq_false] at hfree
        rw [hraw]
        split
        case h_1 comparison hsome =>
          exact h.overHttp textLength arrays hfree.2 (h.comparison comparison hsome) hbody rfl
        case h_2 => exact h

/-! ## Bodies, one after another -/

/-- The entry between two bodies. -/
structure Ready (before : Option Members) (p : PoolEntry) : Prop where
  idle : p.entry.phase.isIdle = true
  follows : Follows before p
  fresh : ∀ id, p.turnID = some id → id < p.minted
  chain : p.fallback = true ∨ ∀ prior, p.entry.continuation = some prior → prior.input ≠ [] →
    ∃ last, before = some last ∧ SavedFor prior last
  texts : TextsSound p

theorem Ready.sending (h : Ready before p) (body : Members) :
    Sending before p.turnID p.minted body { p with comparison := none, answered := false } := by
  constructor
  · exact .inl ((Waits.mk h.follows rfl rfl).of_same ⟨rfl, rfl, rfl, rfl⟩)
  · exact h.chain.imp_right fun hchain prior hprior hnonempty =>
      .inl (hchain prior hprior hnonempty)
  · exact RequestPhase.of_idle h.idle
  · intro hbusy
    have hidle : p.entry.phase.isIdle = false := hbusy
    rw [h.idle] at hidle
    cases hidle
  · intro comparison hsome
    cases hsome
  · exact fun _ => h.idle
  · intro hanswered
    cases hanswered
  · exact ⟨h.texts.items, h.texts.turn, h.texts.chain⟩

theorem Ready.send (textLength : Json → Nat) (js : Builtins) (h : Ready before p) {raw : Members}
    (hraw : ∀ item ∈ Body.input (normalizeResponseBody raw), item.keysOnce = true)
    (steps : List SendStep) :
    Sending before p.turnID p.minted (normalizeResponseBody raw)
      (p.send textLength js raw steps) := by
  have hrun : ∀ q, Sending before p.turnID p.minted (normalizeResponseBody raw) q →
      Sending before p.turnID p.minted (normalizeResponseBody raw)
        (steps.foldl (PoolEntry.step textLength js raw) q) := by
    induction steps with
    | nil => exact fun q hq => hq
    | cons c rest ih => exact fun q hq => ih _ (hq.step js rfl hraw c)
  exact hrun _ (h.sending _)

/-- A body that was answered leaves the entry ready for the next one. -/
theorem Sending.ready (h : Sending before id minted body p) (hanswered : p.answered = true)
    (hfresh : ∀ old, id = some old → old < minted) : Ready (some body) p := by
  obtain ⟨hidle, hadvanced, hchain⟩ := h.answered hanswered
  constructor
  · exact hidle
  · exact hadvanced.records
  · intro new hnew
    rw [hadvanced.turnID] at hnew
    rw [hadvanced.minted]
    split at hnew
    case isTrue hstarts =>
      obtain rfl := Option.some.inj hnew
      rw [if_pos hstarts]
      exact Nat.lt_succ_self _
    case isFalse hstarts =>
      rw [if_neg hstarts]
      exact hfresh new hnew
  · exact hchain.imp_right fun hsaved prior hprior hnonempty =>
      ⟨body, rfl, hsaved prior hprior hnonempty⟩
  · exact h.texts

/-- The id changes where the body starts a turn. -/
theorem Sending.changes (h : Sending before id minted body p) (hanswered : p.answered = true)
    (hfresh : ∀ old, id = some old → old < minted) :
    (p.turnID ≠ id ↔ startsTurn before body = true) := by
  have hadvanced := (h.answered hanswered).2.1
  rw [hadvanced.turnID]
  split
  case isTrue hstarts =>
    refine ⟨fun _ => hstarts, fun _ hsame => ?_⟩
    exact absurd (hfresh minted hsame.symm) (Nat.lt_irrefl _)
  case isFalse hstarts => exact ⟨fun hne => absurd rfl hne, fun hstarts' => absurd hstarts' hstarts⟩

theorem turnChanges_sends (js : Builtins) (h : Ready before p) {bodies : List Members}
    (hbodies : ∀ raw ∈ bodies, ∀ item ∈ Body.input (normalizeResponseBody raw),
      item.keysOnce = true)
    {outcomes : List (List SendStep)} (hlength : outcomes.length = bodies.length)
    (hanswered : ∀ q ∈ p.sends textLength js bodies outcomes, q.answered = true) :
    turnChanges p (p.sends textLength js bodies outcomes) =
      turnStarts before (bodies.map normalizeResponseBody) := by
  induction bodies generalizing p before outcomes with
  | nil => cases outcomes <;> rfl
  | cons raw bodies ih =>
      rcases outcomes with _ | ⟨steps, outcomes⟩
      · cases hlength
      simp only [PoolEntry.sends, List.mem_cons, forall_eq_or_imp] at hanswered
      have hsending := h.send textLength js (hbodies raw (by simp)) steps
      have hready := hsending.ready hanswered.1 h.fresh
      have hrest := ih hready (fun raw hraw => hbodies raw (by simp [hraw]))
        (by simpa using hlength) hanswered.2
      have hchange := hsending.changes hanswered.1 h.fresh
      simp only [PoolEntry.sends, turnChanges, List.map_cons, turnStarts, hrest]
      congr 1
      rw [Bool.eq_iff_iff, decide_eq_true_eq]
      exact hchange

theorem ready_new : Ready none {} := by
  constructor
  · rfl
  · exact ⟨rfl, rfl⟩
  · intro id hid
    cases hid
  · right
    intro prior hprior
    cases hprior
  · constructor
    · intro input hinput
      cases hinput
    · intro canonical hcanonical
      cases hcanonical
    · intro canonical prior hcanonical
      cases hcanonical

end

/-! ## Host bodies -/

theorem isUserTurnMessage_normalize (item : Json) :
    isUserTurnMessage (normalizeResponseInputItem item) = isUserTurnMessage item := by
  cases item with
  | obj members =>
      unfold normalizeResponseInputItem
      dsimp only
      split
      case isTrue h =>
        simp only [Bool.and_eq_true] at h
        have hrole : ((Json.obj members).get? "role").isSome = true := by
          obtain ⟨role, hrole⟩ := Option.isSome_iff_exists.mp h.1.2
          rw [Json.stringAt?_eq_some] at hrole
          simp [hrole]
        have hsame : (Json.obj (Members.set "type" (.str "message") members)).get? "role" =
            (Json.obj members).get? "role" := by
          exact Members.lookup_set_of_ne (by decide) _ _
        have hstring : (Json.obj (Members.set "type" (.str "message") members)).stringAt? "role" =
            (Json.obj members).stringAt? "role" := by
          rw [Json.stringAt?, Json.stringAt?, hsame]
        simp only [isUserTurnMessage, hsame, hrole, hstring, Bool.or_true]
        rfl
      case isFalse => rfl
  | _ => rfl

theorem keysOnce_normalize {item : Json} (h : item.keysOnce = true) :
    (normalizeResponseInputItem item).keysOnce = true := by
  cases item with
  | obj members =>
      unfold normalizeResponseInputItem
      dsimp only
      split
      case isTrue => exact Json.keysOnce_set h rfl
      case isFalse => exact h
  | _ => exact h

theorem bodySignature_normalize (body : Members) :
    bodySignature (normalizeResponseBody body) = bodySignature body := by
  have hfilter : ∀ (value : Json) (members : Members),
      (members.set "input" value).filter (fun member => member.1 ∉ unsignedKeys) =
        members.filter fun member => member.1 ∉ unsignedKeys := by
    intro value members
    induction members with
    | nil => simp [Members.set, unsignedKeys]
    | cons member rest ih =>
        rcases member with ⟨k, v⟩
        simp only [Members.set]
        split
        case isTrue hk => simp [hk, unsignedKeys]
        case isFalse hk => rw [List.filter_cons, List.filter_cons, ih]
  unfold normalizeResponseBody
  split
  · unfold bodySignature
    rw [hfilter]
  · rfl

theorem turnStarts_getElem? {before : Option Members} {bodies : List Members} {i : Nat}
    {last body : Members} (hlast : bodies[i]? = some last) (hbody : bodies[i + 1]? = some body) :
    (turnStarts before bodies)[i + 1]? = some (startsTurn (some last) body) := by
  induction bodies generalizing before i with
  | nil => cases hlast
  | cons first rest ih =>
      cases i with
      | zero =>
          obtain rfl : first = last := by simpa using hlast
          rcases rest with _ | ⟨second, rest⟩
          · cases hbody
          · obtain rfl : second = body := by simpa using hbody
            rfl
      | succ i =>
          simp only [turnStarts, List.getElem?_cons_succ] at hlast hbody ⊢
          exact ih hlast hbody

/-- Whatever carries the bodies, the turn id changes at the same of them; where
a body extends the one before under the same signature, it changes when a user
or developer message was added. -/
theorem turn_positions (textLength : Json → Nat) (js : Builtins) (bodies : List Members)
    (hbodies : ∀ body ∈ bodies, ∀ item ∈ Body.input body, item.keysOnce = true)
    (outcomes outcomes' : List (List SendStep))
    (hlength : outcomes.length = bodies.length) (hlength' : outcomes'.length = bodies.length)
    (hanswered : ∀ q ∈ PoolEntry.sends textLength js {} bodies outcomes, q.answered = true)
    (hanswered' : ∀ q ∈ PoolEntry.sends textLength js {} bodies outcomes', q.answered = true) :
    turnChanges {} (PoolEntry.sends textLength js {} bodies outcomes) =
        turnChanges {} (PoolEntry.sends textLength js {} bodies outcomes') ∧
      ∀ i last body, bodies[i]? = some last → bodies[i + 1]? = some body →
        bodySignature last = bodySignature body →
        extendsInput (normalizeResponseBody last) (normalizeResponseBody body) = true →
        (turnChanges {} (PoolEntry.sends textLength js {} bodies outcomes))[i + 1]? =
          some (((Body.input body).drop (Body.input last).length).any isUserTurnMessage) := by
  have hnormal : ∀ raw ∈ bodies, ∀ item ∈ Body.input (normalizeResponseBody raw),
      item.keysOnce = true := by
    intro raw hraw item hitem
    rw [input_normalizeResponseBody] at hitem
    obtain ⟨item', hitem', rfl⟩ := List.mem_map.mp hitem
    exact keysOnce_normalize (hbodies raw hraw item' hitem')
  have hchanges := turnChanges_sends js ready_new hnormal hlength hanswered
  have hchanges' := turnChanges_sends js ready_new hnormal hlength' hanswered'
  constructor
  · rw [hchanges, hchanges']
  · intro i last body hlast hbody hsign hextends
    have hnormalLast : (bodies.map normalizeResponseBody)[i]? =
        some (normalizeResponseBody last) := by
      rw [List.getElem?_map, hlast, Option.map_some]
    have hnormalBody : (bodies.map normalizeResponseBody)[i + 1]? =
        some (normalizeResponseBody body) := by
      rw [List.getElem?_map, hbody, Option.map_some]
    rw [hchanges, turnStarts_getElem? hnormalLast hnormalBody]
    have hadded : addedItems (normalizeResponseBody last) (normalizeResponseBody body) =
        ((Body.input body).drop (Body.input last).length).map normalizeResponseInputItem := by
      unfold addedItems
      rw [bodySignature_normalize, bodySignature_normalize, hextends]
      simp only [hsign, decide_true, Bool.and_self, if_true]
      rw [input_normalizeResponseBody, input_normalizeResponseBody, List.length_map,
        List.map_drop]
    simp only [startsTurn, hadded, List.any_map]
    congr 1
    exact congrArg _ (funext isUserTurnMessage_normalize)

/-! ### A tool turn and a new turn, over the socket and over HTTP -/

/-- No array is known to be another. -/
def freshArrays : ArrayIdentity where
  sameArray _ _ := false
  sameObjects _ _ := false
  eq_of_sameArray _ _ h := by cases h
  eq_of_sameObjects _ _ h := by cases h

def threeBodies : List Members :=
  [bodyWith [userItem], bodyWith [userItem, callItem, callOutput],
    bodyWith [userItem, callItem, callOutput, assistantItem, userItem]]

def overSocket (choices : List Choice) : List SendStep :=
  .fetch freshArrays :: choices.map fun c => .socket c freshArrays

/-- A prewarm before each user turn, the tool's output chained in between. -/
def allOverSocket : List (List SendStep) :=
  [overSocket firstTurn.tail,
    overSocket [.connect true, .send {}, .receive (arrives (completedAs "r2"))],
    overSocket firstTurn.tail]

/-- The tool's output fails on the socket and goes over HTTP, as all does then. -/
def fallsBack : List (List SendStep) :=
  [overSocket firstTurn.tail,
    overSocket [.connect true, .send {}, .receive (.close 1006 "")] ++
      overSocket [.connectFails] ++ [.http freshArrays],
    [.fetch freshArrays]]

theorem turn_positions_three_bodies :
    turnChanges {} (PoolEntry.sends (fun _ => 0) chainTexts {} threeBodies allOverSocket) =
        turnChanges {} (PoolEntry.sends (fun _ => 0) chainTexts {} threeBodies fallsBack) ∧
      turnChanges {} (PoolEntry.sends (fun _ => 0) chainTexts {} threeBodies allOverSocket) =
        [true, false, true] := by
  refine ⟨?_, by decide +kernel⟩
  exact (turn_positions (fun _ => 0) chainTexts threeBodies (by decide +kernel) allOverSocket
    fallsBack rfl rfl (by decide +kernel) (by decide +kernel)).1

end WebSocket
