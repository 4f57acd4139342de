import Mathlib.Data.List.Nodup
import OpenaiAuth.Interleave.Knowledge

/-! # Sending one request to several accounts

A program that serves a request may send it to one account after another. What
it may do next depends on what it has sent and been answered so far: no account
twice, nothing after a send that threw, and a second send only when the request
can be replayed. `Dispatch` reads these facts off the calls of any program.
-/

namespace Interleave

/-- What became of one send. -/
inductive Outcome (Body : Type) where
  | responded (body : Body)
  | nothing
  | threw
deriving DecidableEq, Repr

namespace Outcome

variable {Body : Type}

def body : Outcome Body → Option Body
  | responded body => some body
  | nothing => none
  | threw => none

def hasThrown : Outcome Body → Bool
  | threw => true
  | _ => false

/-- Something was sent. -/
def reached : Outcome Body → Bool
  | nothing => false
  | _ => true

end Outcome

/-- Which calls send, what their answers say, and which calls cancel a body. -/
structure Dispatch (S : Sig) (Acc Body : Type) where
  target : S.Call → Option Acc
  outcome : (o : S.Call) → S.Ans o → Outcome Body
  discards : S.Call → Option Body

namespace Dispatch

variable {S : Sig} {Acc Body : Type} (D : Dispatch S Acc Body)

/-! ## What a run of calls did -/

/-- The accounts sent to, in order. An attempt that had nothing to send with
sent nothing. -/
def sent (past : List (Exchange S)) : List Acc :=
  past.filterMap fun x => (D.target x.1).filter fun _ => (D.outcome x.1 x.2).reached

/-- The bodies of the responses the sends obtained. -/
def obtained (past : List (Exchange S)) : List Body :=
  past.filterMap fun x => (D.target x.1).bind fun _ => (D.outcome x.1 x.2).body

def cancelled (past : List (Exchange S)) : List Body :=
  past.filterMap fun x => D.discards x.1

/-- Some send threw. -/
def threw (past : List (Exchange S)) : Bool :=
  past.any fun x => (D.target x.1).isSome && (D.outcome x.1 x.2).hasThrown

@[simp] theorem sent_nil : D.sent [] = [] := rfl

theorem sent_append (past more : List (Exchange S)) :
    D.sent (past ++ more) = D.sent past ++ D.sent more :=
  List.filterMap_append

/-! ## What a program may do next -/

/-- The next call is no send, or a send to an account not tried before, while no
send has thrown, and the first one unless the request is replayable. -/
def May (replayable : Bool) (past : List (Exchange S)) (o : S.Call) : Prop :=
  ∀ a, D.target o = some a →
    a ∉ D.sent past ∧ D.threw past = false ∧ (replayable = false → D.sent past = [])

variable {D} {replayable : Bool}

theorem may_of_no_target {past : List (Exchange S)} {o : S.Call} (h : D.target o = none) :
    D.May replayable past o := by
  intro a ha
  rw [h] at ha
  cases ha

/-- What a justified run of calls has sent. -/
structure Disciplined (D : Dispatch S Acc Body) (replayable : Bool) (trace : List (Exchange S)) :
    Prop where
  /-- No account is sent to twice. -/
  once : (D.sent trace).Nodup
  /-- After a send that threw there is no other. -/
  quiet : ∀ before x after, trace = before ++ x :: after → D.threw before = true →
    D.target x.1 = none
  /-- A request that cannot be replayed is sent at most once. -/
  single : replayable = false → (D.sent trace).length ≤ 1

theorem Disciplined.nil : D.Disciplined replayable [] where
  once := List.nodup_nil
  quiet := by
    intro before x after h
    cases before <;> cases h
  single _ := Nat.zero_le 1

/-- One more allowed call keeps the discipline. -/
theorem Disciplined.step {past : List (Exchange S)} {x : Exchange S}
    (h : D.Disciplined replayable past) (hmay : D.May replayable past x.1) :
    D.Disciplined replayable (past ++ [x]) := by
  have hsent : D.sent (past ++ [x]) = D.sent past ∨
      ∃ a, D.target x.1 = some a ∧ D.sent (past ++ [x]) = D.sent past ++ [a] := by
    rw [sent_append]
    unfold sent
    cases htarget : D.target x.1 with
    | none => exact .inl (by simp [htarget])
    | some a => cases hreached : (D.outcome x.1 x.2).reached <;> simp [htarget, hreached]
  constructor
  · rcases hsent with hsame | ⟨a, htarget, hmore⟩
    · rw [hsame]
      exact h.once
    · rw [hmore]
      have hfresh : a ∉ D.sent past := (hmay a htarget).1
      exact List.Nodup.append h.once (List.nodup_singleton a) (by simpa using hfresh)
  · intro before y after hsplit hthrew
    rcases List.eq_nil_or_concat after with rfl | ⟨rest, z, rfl⟩
    · -- the call after the throw is the last one
      obtain ⟨rfl, hlast⟩ := List.append_inj' hsplit rfl
      have hxy : x = y := by simpa using hlast
      subst hxy
      cases htarget : D.target x.1 with
      | none => rfl
      | some a =>
          have hquiet := (hmay a htarget).2.1
          rw [hthrew] at hquiet
          cases hquiet
    · have hsplit' : past ++ [x] = (before ++ y :: rest) ++ [z] := by
        rw [hsplit]
        simp
      obtain ⟨rfl, -⟩ := List.append_inj' hsplit' rfl
      exact h.quiet before y rest rfl hthrew
  · intro hrep
    rcases hsent with hsame | ⟨a, htarget, hmore⟩
    · rw [hsame]
      exact h.single hrep
    · rw [hmore, (hmay a htarget).2.2 hrep]
      exact le_refl 1

/-- The discipline of a program is that of every run of it. -/
theorem disciplined_of_justified {α : Type} {p q : Prog S α}
    {Q : α → List (Exchange S) → Prop} {past trace : List (Exchange S)}
    (h : (Learning.history S).Justified (D.May replayable) past p Q) (hm : p.Makes trace q)
    (hpast : D.Disciplined replayable past) : D.Disciplined replayable (past ++ trace) := by
  induction hm generalizing past with
  | nil => rwa [List.append_nil]
  | cons r _ ih =>
      rw [List.append_cons]
      exact ih (h.2 r) (hpast.step h.1)

/-! ## What one call adds -/

/-- Nothing was sent, obtained or cancelled. -/
structure Quiet (D : Dispatch S Acc Body) (past later : List (Exchange S)) : Prop where
  sent : D.sent later = D.sent past
  obtained : D.obtained later = D.obtained past
  cancelled : D.cancelled later = D.cancelled past
  threw : D.threw later = D.threw past

/-- `body` was cancelled. -/
structure Cancelled (D : Dispatch S Acc Body) (past later : List (Exchange S)) (body : Body) :
    Prop where
  sent : D.sent later = D.sent past
  obtained : D.obtained later = D.obtained past
  cancelled : D.cancelled later = D.cancelled past ++ [body]
  threw : D.threw later = D.threw past

/-- A send to `a` came back with `body`. -/
structure Responded (D : Dispatch S Acc Body) (past later : List (Exchange S)) (a : Acc)
    (body : Body) : Prop where
  sent : D.sent later = D.sent past ++ [a]
  obtained : D.obtained later = D.obtained past ++ [body]
  cancelled : D.cancelled later = D.cancelled past
  threw : D.threw later = D.threw past

/-- A send to `a` threw. -/
structure Fruitless (D : Dispatch S Acc Body) (past later : List (Exchange S)) (a : Acc) : Prop where
  sent : D.sent later = D.sent past ++ [a]
  obtained : D.obtained later = D.obtained past
  cancelled : D.cancelled later = D.cancelled past

theorem quiet_step {past : List (Exchange S)} {x : Exchange S} (htarget : D.target x.1 = none)
    (hdiscards : D.discards x.1 = none) : D.Quiet past (past ++ [x]) where
  sent := by simp [sent, htarget]
  obtained := by simp [obtained, htarget]
  cancelled := by simp [cancelled, hdiscards]
  threw := by simp [threw, htarget]

/-- An attempt that had nothing to send with adds nothing. -/
theorem unsent_step {past : List (Exchange S)} {x : Exchange S}
    (houtcome : D.outcome x.1 x.2 = .nothing) (hdiscards : D.discards x.1 = none) :
    D.Quiet past (past ++ [x]) where
  sent := by cases htarget : D.target x.1 <;> simp [sent, htarget, houtcome, Outcome.reached]
  obtained := by cases htarget : D.target x.1 <;> simp [obtained, htarget, houtcome, Outcome.body]
  cancelled := by simp [cancelled, hdiscards]
  threw := by cases htarget : D.target x.1 <;> simp [threw, htarget, houtcome, Outcome.hasThrown]

theorem cancelled_step {past : List (Exchange S)} {x : Exchange S} {body : Body}
    (htarget : D.target x.1 = none) (hdiscards : D.discards x.1 = some body) :
    D.Cancelled past (past ++ [x]) body where
  sent := by simp [sent, htarget]
  obtained := by simp [obtained, htarget]
  cancelled := by simp [cancelled, hdiscards]
  threw := by simp [threw, htarget]

theorem responded_step {past : List (Exchange S)} {x : Exchange S} {a : Acc} {body : Body}
    (htarget : D.target x.1 = some a) (hdiscards : D.discards x.1 = none)
    (houtcome : D.outcome x.1 x.2 = .responded body) : D.Responded past (past ++ [x]) a body where
  sent := by simp [sent, htarget, houtcome, Outcome.reached]
  obtained := by simp [obtained, htarget, houtcome, Outcome.body]
  cancelled := by simp [cancelled, hdiscards]
  threw := by simp [threw, htarget, houtcome, Outcome.hasThrown]

theorem fruitless_step {past : List (Exchange S)} {x : Exchange S} {a : Acc}
    (htarget : D.target x.1 = some a) (hdiscards : D.discards x.1 = none)
    (houtcome : D.outcome x.1 x.2 = .threw) : D.Fruitless past (past ++ [x]) a where
  sent := by simp [sent, htarget, houtcome, Outcome.reached]
  obtained := by simp [obtained, htarget, houtcome, Outcome.body]
  cancelled := by simp [cancelled, hdiscards]

/-! ## Room for another send -/

/-- No send has thrown, and none was made yet unless the request is replayable. -/
structure Open (D : Dispatch S Acc Body) (replayable : Bool) (past : List (Exchange S)) : Prop where
  quiet : D.threw past = false
  first : replayable = false → D.sent past = []

theorem Open.may {past : List (Exchange S)} (h : D.Open replayable past) {o : S.Call}
    (hfresh : ∀ a, D.target o = some a → a ∉ D.sent past) : D.May replayable past o :=
  fun a ha => ⟨hfresh a ha, h.quiet, h.first⟩

theorem Open.nil : D.Open replayable [] where
  quiet := rfl
  first _ := rfl

theorem Open.of_quiet {past later : List (Exchange S)} (h : D.Open replayable past)
    (hq : D.Quiet past later) : D.Open replayable later where
  quiet := hq.threw.trans h.quiet
  first hreplayable := hq.sent.trans (h.first hreplayable)

theorem Open.of_cancelled {past later : List (Exchange S)} {body : Body}
    (h : D.Open replayable past) (hc : D.Cancelled past later body) : D.Open replayable later where
  quiet := hc.threw.trans h.quiet
  first hreplayable := hc.sent.trans (h.first hreplayable)

/-- A replayable request has room as long as its sends come back. -/
theorem Open.of_responded {past later : List (Exchange S)} {a : Acc} {body : Body}
    (h : D.Open replayable past) (hreplayable : replayable = true)
    (hr : D.Responded past later a body) : D.Open replayable later where
  quiet := hr.threw.trans h.quiet
  first hnot := by
    rw [hreplayable] at hnot
    cases hnot

/-! ## The response handed on -/

/-- Every response obtained so far, and every one the program made itself, has
been cancelled. -/
def Spent (D : Dispatch S Acc Body) (made : List Body) (past : List (Exchange S)) : Prop :=
  (D.cancelled past).Perm (made ++ D.obtained past)

/-- Every one but `body` has. -/
def Delivered (D : Dispatch S Acc Body) (made : List Body) (past : List (Exchange S))
    (body : Body) : Prop :=
  (body :: D.cancelled past).Perm (made ++ D.obtained past)

variable {made : List Body} {past later : List (Exchange S)} {body : Body} {a : Acc}

theorem Spent.nil : D.Spent [] [] := List.Perm.nil

theorem Spent.of_quiet (h : D.Spent made past) (hq : D.Quiet past later) : D.Spent made later := by
  unfold Spent
  rw [hq.cancelled, hq.obtained]
  exact h

theorem Delivered.of_quiet (h : D.Delivered made past body) (hq : D.Quiet past later) :
    D.Delivered made later body := by
  unfold Delivered
  rw [hq.cancelled, hq.obtained]
  exact h

theorem Delivered.of_fruitless (h : D.Delivered made past body) (hf : D.Fruitless past later a) :
    D.Delivered made later body := by
  unfold Delivered
  rw [hf.cancelled, hf.obtained]
  exact h

/-- The response just obtained is the whole one. -/
theorem Spent.responded (h : D.Spent made past) (hr : D.Responded past later a body) :
    D.Delivered made later body := by
  unfold Delivered
  rw [hr.cancelled, hr.obtained, ← List.append_assoc]
  exact (List.Perm.cons body h).trans (List.perm_append_singleton _ _).symm

/-- A response made by the program is whole when all others are spent. -/
theorem Spent.make (h : D.Spent [] past) : D.Delivered [body] past body :=
  List.Perm.cons body h

/-- Once the whole one is cancelled none is left. -/
theorem Delivered.cancelled (h : D.Delivered made past body) (hc : D.Cancelled past later body) :
    D.Spent made later := by
  unfold Spent
  rw [hc.cancelled, hc.obtained]
  exact (List.perm_append_singleton _ _).trans h

/-- The new response takes the place of the one cancelled after it. -/
theorem Delivered.replaced {last : List (Exchange S)} {next : Body}
    (h : D.Delivered made past body) (hr : D.Responded past later a next)
    (hc : D.Cancelled later last body) : D.Delivered made last next := by
  unfold Delivered
  rw [hc.cancelled, hc.obtained, hr.cancelled, hr.obtained, ← List.append_assoc]
  have hspent : (D.cancelled past ++ [body]).Perm (made ++ D.obtained past) :=
    (List.perm_append_singleton _ _).trans h
  exact (List.Perm.cons next hspent).trans (List.perm_append_singleton _ _).symm

theorem Delivered.others {other : Body} (h : D.Delivered made past body)
    (hother : other ∈ D.obtained past) (hne : other ≠ body) : other ∈ D.cancelled past := by
  have hmem : other ∈ body :: D.cancelled past :=
    h.mem_iff.mpr (List.mem_append_right made hother)
  exact (List.mem_cons.mp hmem).resolve_left hne

/-- Bodies of distinct responses are distinct, so the whole one is not among the
cancelled ones. -/
theorem Delivered.whole (h : D.Delivered made past body)
    (hnodup : (made ++ D.obtained past).Nodup) : body ∉ D.cancelled past :=
  (List.nodup_cons.mp (h.nodup_iff.mpr hnodup)).1

end Dispatch

end Interleave
