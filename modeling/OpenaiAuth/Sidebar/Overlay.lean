import Mathlib.Data.List.Pairwise
import Mathlib.Logic.Function.Basic
import OpenaiAuth.Sidebar.State

/-! # Pins a process has decided but not yet read back

The request path never waits on the sidebar file: it reads through
`createSidebarStateCache`, and `applyStickyPinOverlay` lays over what was read
the pins this process decided, each until a snapshot is at hand that was read
after the pin's write finished. One state holds the clock, the file, the reads
in flight, the cache, the requests and the overlay; every callback is a step.

Main results, for every run:

* `Reachable.inv`: the invariant, kept by every step;
* `shown_iff`: when a request is shown a remembered pin, or what was read after
  the pin was written.
-/

namespace Sidebar.Overlay

/-! ## The overlay -/

/-- `id` numbers the pins in the order they were remembered. -/
structure StickyPinOverlayEntry where
  assignment : StickyAssignment
  id : Nat
  persistedAt : Option Nat := none
deriving DecidableEq, Repr

abbrev StickyPinOverlay := Js.Table StickyPinOverlayEntry

/-- What a read found. `started` is the number of the step the read started in. -/
structure SidebarSnapshot where
  state : SidebarState
  readAt : Nat
  started : Option Nat

/-- The `while` loop deletes the oldest keys until the limit is kept. -/
def rememberStickyPin (overlay : StickyPinOverlay) (sessionHash : String)
    (entry : StickyPinOverlayEntry) : StickyPinOverlay :=
  let overlay := (overlay.delete sessionHash).set sessionHash entry
  overlay.drop (overlay.size - stickyAssignmentMaxEntries)

/-- The snapshot was read after the pin's write was over. -/
def outdated (snapshot : SidebarSnapshot) (entry : StickyPinOverlayEntry) : Bool :=
  entry.persistedAt.any (· < snapshot.readAt)

/-- The state a request uses, and the overlay it leaves behind. -/
def applyStickyPinOverlay (snapshot : SidebarSnapshot) (overlay : StickyPinOverlay) :
    SidebarState × StickyPinOverlay :=
  let kept := overlay.filter fun _ entry => !outdated snapshot entry
  if kept.size = 0 then (snapshot.state, kept)
  else
    ({ snapshot.state with
        stickyAssignments := some ((snapshot.state.stickyAssignments.getD .empty).spread
          (kept.map (·.assignment))) }, kept)

/-! ## The cache and the requests -/

/-- A read of the file. Its contents are taken at some moment after its start. -/
structure Read where
  key : Option String
  readAt : Nat
  started : Nat
  contents : Option SidebarState := none
  finished : Bool := false

/-- A request waits for a read, `get` for as long as its budget lasts. -/
inductive Request where
  | idle
  | waiting (read : Nat) (budget : Bool)
  | holding (snapshot : SidebarSnapshot)

/-- A pin was decided. `landed` has the time and the step its write was over,
`dropped` says that a request has deleted its overlay entry. -/
structure Remembered where
  sessionHash : String
  assignment : StickyAssignment
  landed : Option (Nat × Nat) := none
  dropped : Bool := false
deriving DecidableEq, Repr

structure World where
  now : Nat := 0
  steps : Nat := 0
  file : SidebarState := {}
  reads : List Read := []
  inflight : Option Nat := none
  snapshot : Option (SidebarSnapshot × Option String) := none
  requests : Nat → Request := fun _ => .idle
  overlay : StickyPinOverlay := .empty
  /-- The pins by their `id`. -/
  remembered : List Remembered := []

namespace World

variable (w : World)

/-- The read a caller with this key joins or starts. -/
def startRead (key : Option String) : World × Nat :=
  match w.inflight.filter fun i => (w.reads[i]?).any (·.key = key) with
  | some i => (w, i)
  | none =>
      ({ w with
          reads := w.reads ++ [{ key, readAt := w.now, started := w.steps }]
          inflight := some w.reads.length }, w.reads.length)

def hold (request : Nat) (state : Request) : World :=
  { w with requests := Function.update w.requests request state }

/-- `cache.get()`, with the key `statSync` gives. -/
def get (request : Nat) (key : Option String) : World :=
  match w.snapshot.filter (·.2 = key) with
  | some (snapshot, _) => w.hold request (.holding snapshot)
  | none => (w.startRead key).1.hold request (.waiting (w.startRead key).2 true)

/-- `cache.read()` -/
def read (request : Nat) (key : Option String) : World :=
  (w.startRead key).1.hold request (.waiting (w.startRead key).2 false)

def refreshInBackground (key : Option String) : World :=
  if w.snapshot.any (·.2 = key) then w else (w.startRead key).1

/-- The budget of `get` is over: the snapshot at hand, or the default state. -/
def stale : SidebarSnapshot :=
  match w.snapshot with
  | some (snapshot, _) => snapshot
  | none => { state := {}, readAt := 0, started := none }

/-- A read is over: the cache keeps it unless it has a newer one, and everyone
who waits for it gets it. -/
def finish (i : Nat) (read : Read) (state : SidebarState) : World :=
  let found : SidebarSnapshot := { state, readAt := read.readAt, started := some read.started }
  { w with
    reads := w.reads.set i { read with finished := true }
    inflight := w.inflight.filter (· ≠ i)
    snapshot :=
      if w.snapshot.all (·.1.readAt ≤ read.readAt) then some (found, read.key) else w.snapshot
    requests := fun request =>
      match w.requests request with
      | .waiting j budget => if j = i then .holding found else .waiting j budget
      | other => other }

def remember (sessionHash : String) (assignment : StickyAssignment) : World :=
  { w with
    overlay := rememberStickyPin w.overlay sessionHash { assignment, id := w.remembered.length }
    remembered := w.remembered ++ [{ sessionHash, assignment }] }

/-- `entry.persistedAt = Date.now()`, seen through the map while the entry is in it. -/
def land (id : Nat) (pin : Remembered) : World :=
  { w with
    overlay := w.overlay.map fun entry =>
      if entry.id = id then { entry with persistedAt := some w.now } else entry
    remembered := w.remembered.set id { pin with landed := some (w.now, w.steps) } }

/-- A request applies the overlay to its snapshot. -/
def apply (snapshot : SidebarSnapshot) : World :=
  { w with
    overlay := (applyStickyPinOverlay snapshot w.overlay).2
    remembered := w.remembered.mapIdx fun id pin =>
      if w.overlay.entries.any fun entry => entry.2.id = id && outdated snapshot entry.2 then
        { pin with dropped := true }
      else pin }

end World

inductive Event where
  | passes (ms : Nat)
  | fileReplaced (state : SidebarState)
  | gets (request : Nat) (key : Option String)
  | reads (request : Nat) (key : Option String)
  | refreshes (key : Option String)
  | takesContents (read : Nat) (readable : Bool)
  | finishes (read : Nat)
  | budgetEnds (request : Nat)
  | remembers (sessionHash : String) (assignment : StickyAssignment)
  | lands (id : Nat)
  | applies (request : Nat)

/-- What an event does; `none` when it cannot happen. -/
def World.handle (w : World) : Event → Option World
  | .passes ms => some { w with now := w.now + ms }
  | .fileReplaced state => some { w with file := state }
  | .gets request key => some (w.get request key)
  | .reads request key => some (w.read request key)
  | .refreshes key => some (w.refreshInBackground key)
  | .takesContents i readable => do
      let read ← w.reads[i]?
      let state := if readable then normalizeSidebarState w.file else {}
      return { w with reads := w.reads.set i { read with contents := some state } }
  | .finishes i => do
      let read ← w.reads[i]?
      let state ← read.contents
      if read.finished then none else some (w.finish i read state)
  | .budgetEnds request =>
      match w.requests request with
      | .waiting _ true => some (w.hold request (.holding w.stale))
      | _ => none
  | .remembers sessionHash assignment => some (w.remember sessionHash assignment)
  | .lands id => do
      let pin ← w.remembered[id]?
      if pin.landed.isSome then none else some (w.land id pin)
  | .applies request =>
      match w.requests request with
      | .holding snapshot => some (w.apply snapshot)
      | _ => none

def step (w : World) (e : Event) : Option World :=
  (w.handle e).map fun w' => { w' with steps := w.steps + 1 }

def run (w : World) : List Event → Option World
  | [] => some w
  | e :: es => (step w e).bind fun w' => run w' es

inductive Reachable (file : SidebarState) : World → Prop where
  | start : Reachable file { file }
  | step {w w' : World} (e : Event) : Reachable file w → step w e = some w' → Reachable file w'

/-! ## What a request should be shown -/

/-- `id` is the last pin remembered for its session, and fewer than 256 pins
were remembered after it. -/
structure Latest (remembered : List Remembered) (id : Nat) (pin : Remembered) : Prop where
  here : remembered[id]? = some pin
  last : ∀ (later : Nat) (other : Remembered), remembered[later]? = some other → id < later →
    other.sessionHash ≠ pin.sessionHash
  recent : remembered.length - (id + 1) < stickyAssignmentMaxEntries

/-- The read started after the pin's write was over. -/
def ReadAfter (pin : Remembered) (snapshot : SidebarSnapshot) : Prop :=
  ∃ landed ∈ pin.landed, ∃ started ∈ snapshot.started, landed.2 < started

/-- The request is shown the pin, or what a read started after the pin's write
finished contained. -/
def Shown (w : World) (pin : Remembered) (snapshot : SidebarSnapshot) : Prop :=
  (applyStickyPinOverlay snapshot w.overlay).1.pin pin.sessionHash = some pin.assignment ∨
    (ReadAfter pin snapshot ∧
      (applyStickyPinOverlay snapshot w.overlay).1.pin pin.sessionHash =
        snapshot.state.pin pin.sessionHash)

/-- No request has dropped the pin's entry, or the snapshot is new enough, or it
has the pin. -/
def Kept (pin : Remembered) (snapshot : SidebarSnapshot) : Prop :=
  pin.dropped = false ∨ ReadAfter pin snapshot ∨
    snapshot.state.pin pin.sessionHash = some pin.assignment

/-! ## Dates -/

/-- Whatever landed at an earlier time than `readAt` landed before the read. -/
structure Dated (w : World) (readAt : Nat) (started : Option Nat) : Prop where
  past : readAt ≤ w.now
  begun : ∀ step ∈ started, step < w.steps
  ordered : ∀ (id : Nat) (pin : Remembered) (landed : Nat × Nat), w.remembered[id]? = some pin → pin.landed = some landed →
    landed.1 < readAt → ∃ step ∈ started, landed.2 < step

/-- A date of `w`, or of the step `w` is about to take. -/
def Source (w : World) (readAt : Nat) (started : Option Nat) : Prop :=
  Dated w readAt started ∨ (readAt = w.now ∧ started = some w.steps)

structure Clock (w : World) : Prop where
  reads : ∀ read ∈ w.reads, Dated w read.readAt (some read.started)
  cached : ∀ s key, w.snapshot = some (s, key) → Dated w s.readAt s.started
  held : ∀ request s, w.requests request = .holding s → Dated w s.readAt s.started
  landed : ∀ (id : Nat) (pin : Remembered) (landed : Nat × Nat), w.remembered[id]? = some pin → pin.landed = some landed →
    landed.1 ≤ w.now ∧ landed.2 < w.steps

/-- What a step may do to the clock and to the landings. -/
structure Extends (w w' : World) : Prop where
  now : w.now ≤ w'.now
  steps : w.steps < w'.steps
  landings : ∀ (id : Nat) (pin : Remembered) (landed : Nat × Nat), w'.remembered[id]? = some pin →
    pin.landed = some landed → (∃ before : Remembered, w.remembered[id]? = some before ∧ before.landed = some landed) ∨
      landed = (w.now, w.steps)

theorem Source.dated {w w' : World} (hext : Extends w w') (hclock : Clock w) {readAt : Nat}
    {started : Option Nat} (h : Source w readAt started) : Dated w' readAt started := by
  rcases h with hdated | ⟨hat, hstarted⟩
  · constructor
    · exact hdated.past.trans hext.now
    · intro step hstep
      exact (hdated.begun step hstep).trans hext.steps
    · intro id pin landed hpin hlanded hlt
      rcases hext.landings id pin landed hpin hlanded with ⟨before, hbefore, hsame⟩ | hnew
      · exact hdated.ordered id before landed hbefore hsame hlt
      · -- what lands in this step lands no earlier than the read
        rw [hnew] at hlt
        have hpast := hdated.past
        simp only at hlt
        omega
  · constructor
    · rw [hat]
      exact hext.now
    · intro step hstep
      rw [hstarted, Option.mem_def, Option.some.injEq] at hstep
      rw [← hstep]
      exact hext.steps
    · intro id pin landed hpin hlanded hlt
      rcases hext.landings id pin landed hpin hlanded with ⟨before, hbefore, hsame⟩ | hnew
      · exact ⟨w.steps, hstarted, (hclock.landed id before landed hbefore hsame).2⟩
      · rw [hnew, hat] at hlt
        exact absurd hlt (lt_irrefl _)

/-- The clock invariant after a step, from where its dates come. -/
theorem Clock.extend {w w' : World} (h : Clock w) (hext : Extends w w')
    (hreads : ∀ read ∈ w'.reads, Source w read.readAt (some read.started))
    (hcached : ∀ s key, w'.snapshot = some (s, key) → Source w s.readAt s.started)
    (hheld : ∀ request s, w'.requests request = .holding s → Source w s.readAt s.started) :
    Clock w' := by
  constructor
  · exact fun read hmem => (hreads read hmem).dated hext h
  · exact fun s key hs => (hcached s key hs).dated hext h
  · exact fun request s hs => (hheld request s hs).dated hext h
  · intro id pin landed hpin hlanded
    rcases hext.landings id pin landed hpin hlanded with ⟨before, hbefore, hsame⟩ | hnew
    · have hold := h.landed id before landed hbefore hsame
      exact ⟨hold.1.trans hext.now, hold.2.trans hext.steps⟩
    · rw [hnew]
      exact ⟨hext.now, hext.steps⟩

/-! ## What the overlay holds -/

structure Pins (overlay : StickyPinOverlay) (remembered : List Remembered) : Prop where
  entry : ∀ key e, (key, e) ∈ overlay.entries → ∃ pin, remembered[e.id]? = some pin ∧
    pin.sessionHash = key ∧ pin.assignment = e.assignment ∧
    pin.landed.map Prod.fst = e.persistedAt ∧ pin.dropped = false
  last : ∀ key e, (key, e) ∈ overlay.entries → ∀ (later : Nat) (other : Remembered), remembered[later]? = some other →
    e.id < later → other.sessionHash ≠ key
  ordered : overlay.entries.Pairwise fun a b => a.2.id < b.2.id
  present : ∀ id pin, Latest remembered id pin → pin.dropped = false →
    ∃ e, (pin.sessionHash, e) ∈ overlay.entries ∧ e.id = id

/-- Increasing numbers above `n` and below `m` are fewer than `m - n`. -/
theorem length_le_of_increasing {l : List Nat} {n m : Nat} (hpair : l.Pairwise (· < ·))
    (hgt : ∀ k ∈ l, n < k) (hlt : ∀ k ∈ l, k < m) : l.length ≤ m - (n + 1) := by
  induction l generalizing n with
  | nil => exact Nat.zero_le _
  | cons k rest ih =>
      rcases List.pairwise_cons.mp hpair with ⟨hhead, htail⟩
      have hk := hgt k List.mem_cons_self
      have hkm := hlt k List.mem_cons_self
      have hrest := ih htail hhead fun j hj => hlt j (List.mem_cons_of_mem k hj)
      simp only [List.length_cons]
      omega

/-- Deleting the oldest beyond the limit spares an entry with fewer than the
limit after it. -/
theorem mem_drop_of_recent {entries : List (String × StickyPinOverlayEntry)} {m limit : Nat}
    (hpair : entries.Pairwise fun a b => a.2.id < b.2.id)
    (hlt : ∀ a ∈ entries, a.2.id < m) {a : String × StickyPinOverlayEntry} (ha : a ∈ entries)
    (hrecent : m - (a.2.id + 1) < limit) : a ∈ entries.drop (entries.length - limit) := by
  rcases List.append_of_mem ha with ⟨older, newer, hsplit⟩
  rw [hsplit] at hpair hlt ⊢
  have hnewer := (List.pairwise_append.mp hpair).2.1
  rcases List.pairwise_cons.mp hnewer with ⟨hhead, htail⟩
  have hcount : (newer.map (·.2.id)).length ≤ m - (a.2.id + 1) := by
    apply length_le_of_increasing
    · exact List.pairwise_map.mpr htail
    · intro k hk
      rcases List.mem_map.mp hk with ⟨b, hb, heq⟩
      rw [← heq]
      exact hhead b hb
    · intro k hk
      rcases List.mem_map.mp hk with ⟨b, hb, heq⟩
      rw [← heq]
      exact hlt b (List.mem_append_right older (List.mem_cons_of_mem a hb))
  rw [List.length_map] at hcount
  have hbound : (older ++ a :: newer).length - limit ≤ older.length := by
    simp only [List.length_append, List.length_cons]
    omega
  rw [List.drop_append_of_le_length hbound]
  exact List.mem_append_right _ List.mem_cons_self

theorem Latest.of_append {remembered : List Remembered} {new pin : Remembered} {id : Nat}
    (h : Latest (remembered ++ [new]) id pin) (hlt : id < remembered.length) :
    Latest remembered id pin ∧ pin.sessionHash ≠ new.sessionHash := by
  have hhere := h.here
  have hrecent := h.recent
  rw [List.getElem?_append_left hlt] at hhere
  simp only [List.length_append, List.length_singleton] at hrecent
  constructor
  · constructor
    · exact hhere
    · intro later other hother
      have hin : later < remembered.length := (List.getElem?_eq_some_iff.mp hother).1
      apply h.last later other
      rw [List.getElem?_append_left hin]
      exact hother
    · omega
  · have hnew : (remembered ++ [new])[remembered.length]? = some new := by simp
    exact (h.last remembered.length new hnew hlt).symm

section

variable {overlay : StickyPinOverlay} {remembered : List Remembered}

theorem Pins.id_lt (h : Pins overlay remembered) {key : String} {e : StickyPinOverlayEntry}
    (hmem : (key, e) ∈ overlay.entries) : e.id < remembered.length := by
  rcases h.entry key e hmem with ⟨pin, hpin, -⟩
  exact (List.getElem?_eq_some_iff.mp hpin).1

theorem remember_entries (sessionHash : String) (new : StickyPinOverlayEntry) :
    ((overlay.delete sessionHash).set sessionHash new).entries =
      overlay.entries.filter (fun entry => entry.1 ≠ sessionHash) ++ [(sessionHash, new)] := by
  apply Js.Table.entries_set_of_absent
  simp [Js.Table.get_delete]

theorem rememberStickyPin_entries (sessionHash : String) (new : StickyPinOverlayEntry) :
    (rememberStickyPin overlay sessionHash new).entries =
      ((overlay.delete sessionHash).set sessionHash new).entries.drop
        (((overlay.delete sessionHash).set sessionHash new).entries.length -
          stickyAssignmentMaxEntries) := by
  simp only [rememberStickyPin, Js.Table.drop, Js.Table.size]

theorem Pins.remember (h : Pins overlay remembered) (sessionHash : String)
    (assignment : StickyAssignment) :
    Pins (rememberStickyPin overlay sessionHash { assignment, id := remembered.length })
      (remembered ++ [{ sessionHash := sessionHash, assignment }]) := by
  let new : StickyPinOverlayEntry := { assignment, id := remembered.length }
  have hentries : ((overlay.delete sessionHash).set sessionHash new).entries = _ :=
    remember_entries sessionHash new
  have hold : ∀ key e, (key, e) ∈ ((overlay.delete sessionHash).set sessionHash new).entries →
      ((key, e) ∈ overlay.entries ∧ key ≠ sessionHash) ∨ (key = sessionHash ∧ e = new) := by
    intro key e hmem
    rw [hentries, List.mem_append, List.mem_filter, List.mem_singleton, Prod.mk.injEq] at hmem
    rcases hmem with ⟨hmem, hne⟩ | hnew
    · exact Or.inl ⟨hmem, of_decide_eq_true hne⟩
    · exact Or.inr hnew
  have hpair : ((overlay.delete sessionHash).set sessionHash new).entries.Pairwise
      fun a b => a.2.id < b.2.id := by
    rw [hentries]
    refine List.pairwise_append.mpr ⟨h.ordered.filter _, List.pairwise_singleton _ _, ?_⟩
    intro a ha b hb
    rw [List.mem_singleton.mp hb]
    exact h.id_lt (List.mem_filter.mp ha).1
  have hdropped : ∀ {entry}, entry ∈ (rememberStickyPin overlay sessionHash new).entries →
      entry ∈ ((overlay.delete sessionHash).set sessionHash new).entries := by
    intro entry hmem
    rw [rememberStickyPin_entries] at hmem
    exact List.mem_of_mem_drop hmem
  constructor
  · intro key e hmem
    rcases hold key e (hdropped hmem) with ⟨hmem, -⟩ | ⟨hkey, he⟩
    · rcases h.entry key e hmem with ⟨pin, hpin, hrest⟩
      exact ⟨pin, by rw [List.getElem?_append_left (h.id_lt hmem), hpin], hrest⟩
    · rw [hkey, he]
      exact ⟨_, List.getElem?_concat_length, rfl, rfl, rfl, rfl⟩
  · intro key e hmem later other hother hlt
    rcases hold key e (hdropped hmem) with ⟨hmem, hne⟩ | ⟨hkey, he⟩
    · by_cases hin : later < remembered.length
      · rw [List.getElem?_append_left hin] at hother
        exact h.last key e hmem later other hother hlt
      · -- the pin just remembered is another session's
        rw [List.getElem?_append_right (by omega)] at hother
        have hpin := List.mem_singleton.mp (List.mem_of_getElem? hother)
        rw [hpin]
        exact hne.symm
    · have hin := (List.getElem?_eq_some_iff.mp hother).1
      rw [List.length_append, List.length_singleton] at hin
      rw [he] at hlt
      have hnew : remembered.length < later := hlt
      omega
  · rw [rememberStickyPin_entries]
    exact hpair.sublist (List.drop_sublist _ _)
  · intro id pin hlatest hkept
    have hrecent := hlatest.recent
    simp only [List.length_append, List.length_singleton] at hrecent
    have hlt : ∀ a ∈ ((overlay.delete sessionHash).set sessionHash new).entries,
        a.2.id < remembered.length + 1 := by
      rintro ⟨key, e⟩ hmem
      rcases hold key e hmem with ⟨hmem, -⟩ | ⟨-, he⟩
      · exact (h.id_lt hmem).trans (Nat.lt_succ_self _)
      · rw [he]
        exact Nat.lt_succ_self _
    have hpresent : ∃ e, (pin.sessionHash, e) ∈
        ((overlay.delete sessionHash).set sessionHash new).entries ∧ e.id = id := by
      have hin := (List.getElem?_eq_some_iff.mp hlatest.here).1
      simp only [List.length_append, List.length_singleton] at hin
      by_cases hid : id < remembered.length
      · rcases hlatest.of_append hid with ⟨hbefore, hne⟩
        rcases h.present id pin hbefore hkept with ⟨e, hmem, heq⟩
        refine ⟨e, ?_, heq⟩
        rw [hentries]
        exact List.mem_append_left _ (List.mem_filter.mpr ⟨hmem, by simpa using hne⟩)
      · have hlast : id = remembered.length := by omega
        have hhere := hlatest.here
        rw [hlast, List.getElem?_concat_length, Option.some.injEq] at hhere
        refine ⟨new, ?_, hlast.symm⟩
        rw [hentries, ← hhere]
        exact List.mem_append_right _ List.mem_cons_self
    rcases hpresent with ⟨e, hmem, heq⟩
    refine ⟨e, ?_, heq⟩
    rw [rememberStickyPin_entries]
    apply mem_drop_of_recent hpair hlt hmem
    rw [heq]
    exact hrecent

/-- A change of one pin that keeps what it was of. -/
theorem Latest.of_set {id' : Nat} {old new : Remembered} (hold : remembered[id']? = some old)
    (hsame : new.sessionHash = old.sessionHash) {id : Nat} {pin : Remembered}
    (h : Latest (remembered.set id' new) id pin) :
    Latest remembered id (if id = id' then old else pin) := by
  have hlen := (List.getElem?_eq_some_iff.mp hold).1
  have hhere := h.here
  have hsession : (if id = id' then old else pin).sessionHash = pin.sessionHash := by
    by_cases hid : id = id'
    · rw [hid, List.getElem?_set_self hlen, Option.some.injEq] at hhere
      rw [if_pos hid, ← hsame, hhere]
    · rw [if_neg hid]
  constructor
  · by_cases hid : id = id'
    · rw [if_pos hid, hid, hold]
    · rw [if_neg hid]
      rwa [List.getElem?_set_ne (Ne.symm hid)] at hhere
  · intro later other hother hlt
    rw [hsession]
    by_cases hlater : later = id'
    · have hnew : (remembered.set id' new)[later]? = some new := by
        rw [hlater, List.getElem?_set_self hlen]
      have hne := h.last later new hnew hlt
      rw [hlater, hold, Option.some.injEq] at hother
      rw [← hother, ← hsame]
      exact hne
    · apply h.last later other _ hlt
      rw [List.getElem?_set_ne (Ne.symm hlater)]
      exact hother
  · simpa using h.recent

theorem Pins.land (h : Pins overlay remembered) {id : Nat} {pin : Remembered}
    (hpin : remembered[id]? = some pin) (landed : Nat × Nat) :
    Pins
      (overlay.map fun entry =>
        if entry.id = id then { entry with persistedAt := some landed.1 } else entry)
      (remembered.set id { pin with landed := some landed }) := by
  have hlen := (List.getElem?_eq_some_iff.mp hpin).1
  have hkeepsId : ∀ e : StickyPinOverlayEntry,
      (if e.id = id then { e with persistedAt := some landed.1 } else e).id = e.id := by
    intro e
    split <;> rfl
  have hold : ∀ {key e}, (key, e) ∈ (overlay.map fun entry =>
      if entry.id = id then { entry with persistedAt := some landed.1 } else entry).entries →
      ∃ before, (key, before) ∈ overlay.entries ∧
        (if before.id = id then { before with persistedAt := some landed.1 } else before) = e := by
    intro key e hmem
    rcases List.mem_map.mp hmem with ⟨⟨k, before⟩, hmem, heq⟩
    rw [Prod.mk.injEq] at heq
    exact ⟨before, heq.1 ▸ hmem, heq.2⟩
  constructor
  · intro key e hmem
    rcases hold hmem with ⟨before, hmem, he⟩
    rcases h.entry key before hmem with ⟨old, hget, hsession, hassign, hlanded, hkept⟩
    rw [← he]
    by_cases hid : before.id = id
    · -- the entry of the pin that landed
      rw [hid, hpin, Option.some.injEq] at hget
      rw [if_pos hid]
      refine ⟨{ pin with landed := some landed }, ?_, ?_, ?_, rfl, ?_⟩
      · simp only [hid]
        exact List.getElem?_set_self hlen
      · rw [← hsession, ← hget]
      · rw [← hassign, ← hget]
      · rw [← hkept, ← hget]
    · rw [if_neg hid]
      exact ⟨old, by rw [List.getElem?_set_ne (Ne.symm hid), hget], hsession, hassign, hlanded, hkept⟩
  · intro key e hmem later other hother hlt
    rcases hold hmem with ⟨before, hmem, he⟩
    rw [← he, hkeepsId] at hlt
    by_cases hlater : later = id
    · rw [hlater, List.getElem?_set_self hlen, Option.some.injEq] at hother
      rw [← hother]
      exact h.last key before hmem id pin hpin (hlater ▸ hlt)
    · rw [List.getElem?_set_ne (Ne.symm hlater)] at hother
      exact h.last key before hmem later other hother hlt
  · apply List.pairwise_map.mpr
    apply h.ordered.imp
    intro a b hlt
    rw [hkeepsId, hkeepsId]
    exact hlt
  · intro id' pin' hlatest hkept
    have hsession : ({ pin with landed := some landed } : Remembered).sessionHash =
        pin.sessionHash := rfl
    have hbefore := hlatest.of_set hpin hsession
    have hsame : (if id' = id then pin else pin').sessionHash = pin'.sessionHash ∧
        (if id' = id then pin else pin').dropped = pin'.dropped := by
      by_cases hid : id' = id
      · have hhere := hlatest.here
        rw [hid, List.getElem?_set_self hlen, Option.some.injEq] at hhere
        rw [if_pos hid, ← hhere]
        exact ⟨rfl, rfl⟩
      · rw [if_neg hid]
        exact ⟨rfl, rfl⟩
    rcases h.present id' _ hbefore (hsame.2.trans hkept) with ⟨e, hmem, heq⟩
    rw [hsame.1] at hmem
    exact ⟨_, List.mem_map.mpr ⟨_, hmem, rfl⟩, (hkeepsId e).trans heq⟩

/-- The pins after `apply`: those whose entries it deletes are marked. -/
def marked (snapshot : SidebarSnapshot) (overlay : StickyPinOverlay) (id : Nat)
    (pin : Remembered) : Remembered :=
  if overlay.entries.any fun entry => entry.2.id = id && outdated snapshot entry.2 then
    { pin with dropped := true }
  else pin

theorem marked_sessionHash (snapshot : SidebarSnapshot) (id : Nat) (pin : Remembered) :
    (marked snapshot overlay id pin).sessionHash = pin.sessionHash ∧
      (marked snapshot overlay id pin).assignment = pin.assignment ∧
      (marked snapshot overlay id pin).landed = pin.landed := by
  unfold marked
  split
  · exact ⟨rfl, rfl, rfl⟩
  · exact ⟨rfl, rfl, rfl⟩

/-- No two entries have one number. -/
theorem Pins.eq_of_id (h : Pins overlay remembered) {a b : String × StickyPinOverlayEntry}
    (ha : a ∈ overlay.entries) (hb : b ∈ overlay.entries) (hid : a.2.id = b.2.id) : a = b := by
  have hnodup : (overlay.entries.map (·.2.id)).Nodup :=
    List.pairwise_map.mpr (h.ordered.imp fun hlt => Nat.ne_of_lt hlt)
  exact List.inj_on_of_nodup_map hnodup ha hb hid

theorem Pins.apply (h : Pins overlay remembered) (snapshot : SidebarSnapshot) :
    Pins (applyStickyPinOverlay snapshot overlay).2
      (remembered.mapIdx (marked snapshot overlay)) := by
  have hget : ∀ (id : Nat) (pin' : Remembered),
      (remembered.mapIdx (marked snapshot overlay))[id]? = some pin' →
      ∃ pin, remembered[id]? = some pin ∧ marked snapshot overlay id pin = pin' := by
    intro id pin' hpin'
    rw [List.getElem?_mapIdx, Option.map_eq_some_iff] at hpin'
    exact hpin'
  have hkept : (applyStickyPinOverlay snapshot overlay).2 =
      overlay.filter fun _ entry => !outdated snapshot entry := by
    simp only [applyStickyPinOverlay]
    split <;> rfl
  have hold : ∀ {key e}, (key, e) ∈ (applyStickyPinOverlay snapshot overlay).2.entries →
      (key, e) ∈ overlay.entries ∧ outdated snapshot e = false := by
    intro key e hmem
    rw [hkept] at hmem
    simpa using List.mem_filter.mp hmem
  constructor
  · intro key e hmem
    rcases hold hmem with ⟨hmem, hfresh⟩
    rcases h.entry key e hmem with ⟨pin, hpin, hrest⟩
    have hunmarked : marked snapshot overlay e.id pin = pin := by
      unfold marked
      rw [if_neg]
      intro hany
      rcases List.any_eq_true.mp hany with ⟨other, hother, hid⟩
      simp only [Bool.and_eq_true, decide_eq_true_eq] at hid
      have hsame := h.eq_of_id hother hmem hid.1
      rw [hsame, hfresh] at hid
      cases hid.2
    exact ⟨pin, by rw [List.getElem?_mapIdx, hpin, Option.map_some, hunmarked], hrest⟩
  · intro key e hmem later other hother hlt
    rcases hget later other hother with ⟨pin, hpin, heq⟩
    rw [← heq, (marked_sessionHash snapshot later pin).1]
    exact h.last key e (hold hmem).1 later pin hpin hlt
  · rw [hkept]
    exact h.ordered.filter _
  · intro id pin' hlatest hkeeps
    rcases hget id pin' hlatest.here with ⟨pin, hpin, heq⟩
    have hunmarked : marked snapshot overlay id pin = pin ∧ ¬ (overlay.entries.any fun entry =>
        entry.2.id = id && outdated snapshot entry.2) = true := by
      unfold marked at heq ⊢
      by_cases hany : (overlay.entries.any fun entry =>
          entry.2.id = id && outdated snapshot entry.2) = true
      · rw [if_pos hany] at heq
        rw [← heq] at hkeeps
        cases hkeeps
      · rw [if_neg hany]
        exact ⟨rfl, hany⟩
    have hsame : pin = pin' := hunmarked.1.symm.trans heq
    have hbefore : Latest remembered id pin' := by
      constructor
      · rw [hpin, hsame]
      · intro later other hother hlt
        have hmarked : (remembered.mapIdx (marked snapshot overlay))[later]? =
            some (marked snapshot overlay later other) := by
          rw [List.getElem?_mapIdx, hother, Option.map_some]
        have hne := hlatest.last later _ hmarked hlt
        rwa [(marked_sessionHash snapshot later other).1] at hne
      · simpa using hlatest.recent
    rcases h.present id pin' hbefore hkeeps with ⟨e, hmem, hid⟩
    refine ⟨e, ?_, hid⟩
    have hfresh : outdated snapshot e = false := by
      by_contra hout
      apply hunmarked.2
      exact List.any_eq_true.mpr ⟨_, hmem, by simpa [hid] using hout⟩
    rw [hkept]
    exact List.mem_filter.mpr ⟨hmem, by simpa using hfresh⟩

/-- What a request sees of one session. -/
theorem apply_pin (snapshot : SidebarSnapshot) (overlay : StickyPinOverlay)
    (sessionHash : String) :
    (applyStickyPinOverlay snapshot overlay).1.pin sessionHash =
      (((overlay.get sessionHash).filter fun entry => !outdated snapshot entry).map
        (·.assignment)).or (snapshot.state.pin sessionHash) := by
  unfold applyStickyPinOverlay
  simp only
  split
  · rename_i hsize
    have hnone := Js.Table.get_of_size_zero hsize sessionHash
    rw [Js.Table.get_filter] at hnone
    simp [hnone]
  · simp only [SidebarState.pin, Option.bind_some, Js.Table.get_spread, Js.Table.get_map,
      Js.Table.get_filter]
    cases snapshot.state.stickyAssignments with
    | none => rfl
    | some assignments => rfl

end

/-! ## Every step keeps the invariant -/

structure Inv (w : World) : Prop where
  clock : Clock w
  pins : Pins w.overlay w.remembered

section

variable {w w' : World}

/-- A step that neither remembers nor lands anything. -/
theorem Extends.of_remembered (hnow : w.now ≤ w'.now) (hsteps : w'.steps = w.steps + 1)
    (hsame : w'.remembered = w.remembered) : Extends w w' := by
  constructor
  · exact hnow
  · omega
  · intro id pin landed hpin hlanded
    rw [hsame] at hpin
    exact Or.inl ⟨pin, hpin, hlanded⟩

/-- Reads that are started, joined or changed keep their dates. -/
theorem startRead_source (h : Clock w) (key : Option String) :
    (∀ read ∈ (w.startRead key).1.reads, Source w read.readAt (some read.started)) ∧
      (w.startRead key).1.snapshot = w.snapshot ∧ (w.startRead key).1.requests = w.requests ∧
      (w.startRead key).1.remembered = w.remembered ∧ (w.startRead key).1.overlay = w.overlay ∧
      (w.startRead key).1.now = w.now := by
  unfold World.startRead
  split
  · exact ⟨fun read hmem => Or.inl (h.reads read hmem), rfl, rfl, rfl, rfl, rfl⟩
  · refine ⟨?_, rfl, rfl, rfl, rfl, rfl⟩
    intro read hmem
    rcases List.mem_append.mp hmem with hmem | hmem
    · exact Or.inl (h.reads read hmem)
    · rw [List.mem_singleton.mp hmem]
      exact Or.inr ⟨rfl, rfl⟩

/-- The invariant after a step that leaves the pins alone. -/
theorem Inv.of_source (h : Inv w) (hnow : w.now ≤ w'.now) (hsteps : w'.steps = w.steps + 1)
    (hremembered : w'.remembered = w.remembered) (hoverlay : w'.overlay = w.overlay)
    (hreads : ∀ read ∈ w'.reads, Source w read.readAt (some read.started))
    (hcached : ∀ s key, w'.snapshot = some (s, key) → Source w s.readAt s.started)
    (hheld : ∀ request s, w'.requests request = .holding s → Source w s.readAt s.started) :
    Inv w' := by
  constructor
  · exact h.clock.extend (.of_remembered hnow hsteps hremembered) hreads hcached hheld
  · rw [hoverlay, hremembered]
    exact h.pins

theorem Clock.sources (h : Clock w) :
    (∀ read ∈ w.reads, Source w read.readAt (some read.started)) ∧
      (∀ s key, w.snapshot = some (s, key) → Source w s.readAt s.started) ∧
      ∀ request s, w.requests request = .holding s → Source w s.readAt s.started :=
  ⟨fun read hmem => Or.inl (h.reads read hmem), fun s key hs => Or.inl (h.cached s key hs),
    fun request s hs => Or.inl (h.held request s hs)⟩

/-- A request that begins to wait holds nothing. -/
theorem holding_of_waiting {requests : Nat → Request} {request read : Nat} {budget : Bool}
    {other : Nat} {s : SidebarSnapshot}
    (h : Function.update requests request (.waiting read budget) other = .holding s) :
    requests other = .holding s := by
  by_cases hr : other = request
  · rw [hr, Function.update_self] at h
    cases h
  · rwa [Function.update_of_ne hr] at h

theorem holding_of_hold {requests : Nat → Request} {request : Nat} {snapshot : SidebarSnapshot}
    {other : Nat} {s : SidebarSnapshot}
    (h : Function.update requests request (.holding snapshot) other = .holding s) :
    requests other = .holding s ∨ s = snapshot := by
  by_cases hr : other = request
  · rw [hr, Function.update_self, Request.holding.injEq] at h
    exact Or.inr h.symm
  · rw [Function.update_of_ne hr] at h
    exact Or.inl h

/-- Starting or joining a read and waiting for it. -/
theorem Inv.waits (h : Inv w) (request : Nat) (key : Option String) (budget : Bool) :
    Inv { (w.startRead key).1.hold request (.waiting (w.startRead key).2 budget) with
      steps := w.steps + 1 } := by
  have hsources := h.clock.sources
  rcases startRead_source h.clock key with ⟨hreads, hsnapshot, hrequests, hrem, hov, hnow⟩
  apply h.of_source
  · exact hnow.ge
  · rfl
  · exact hrem
  · exact hov
  · exact hreads
  · intro s key' hs
    exact hsources.2.1 s key' (hsnapshot ▸ hs)
  · intro other s hs
    have hold := holding_of_waiting hs
    rw [hrequests] at hold
    exact hsources.2.2 other s hold

/-- A request gets a snapshot whose date is known. -/
theorem Inv.holds (h : Inv w) (request : Nat) {snapshot : SidebarSnapshot}
    (hsource : Source w snapshot.readAt snapshot.started) :
    Inv { w.hold request (.holding snapshot) with steps := w.steps + 1 } := by
  have hsources := h.clock.sources
  apply h.of_source
  · exact le_rfl
  · rfl
  · rfl
  · rfl
  · exact hsources.1
  · exact hsources.2.1
  · intro other s hs
    rcases holding_of_hold hs with hold | heq
    · exact hsources.2.2 other s hold
    · rw [heq]
      exact hsource

/-- The default state of `get` was read before everything. -/
theorem stale_source (h : Clock w) : Source w w.stale.readAt w.stale.started := by
  unfold World.stale
  cases hs : w.snapshot with
  | some cached => exact h.sources.2.1 cached.1 cached.2 hs
  | none =>
      left
      constructor
      · exact Nat.zero_le _
      · intro step hstep
        cases hstep
      · intro id pin landed _ _ hlt
        exact absurd hlt (Nat.not_lt_zero _)

theorem Inv.gets (h : Inv w) (request : Nat) (key : Option String) :
    Inv { w.get request key with steps := w.steps + 1 } := by
  unfold World.get
  split
  · rename_i snapshot key' hfilter
    have hcached := (Option.filter_eq_some_iff.mp hfilter).1
    exact h.holds request (h.clock.sources.2.1 snapshot key' hcached)
  · exact h.waits request key true

theorem Inv.refreshes (h : Inv w) (key : Option String) :
    Inv { w.refreshInBackground key with steps := w.steps + 1 } := by
  have hsources := h.clock.sources
  unfold World.refreshInBackground
  split
  · exact h.of_source le_rfl rfl rfl rfl hsources.1 hsources.2.1 hsources.2.2
  · rcases startRead_source h.clock key with ⟨hreads, hsnapshot, hrequests, hrem, hov, hnow⟩
    apply h.of_source
    · exact hnow.ge
    · rfl
    · exact hrem
    · exact hov
    · exact hreads
    · intro s key' hs
      exact hsources.2.1 s key' (hsnapshot ▸ hs)
    · intro other s hs
      exact hsources.2.2 other s (hrequests ▸ hs)

theorem Inv.takesContents (h : Inv w) {i : Nat} {read : Read} (hread : w.reads[i]? = some read)
    (state : SidebarState) :
    Inv { w with
      reads := w.reads.set i { read with contents := some state }, steps := w.steps + 1 } := by
  have hsources := h.clock.sources
  refine h.of_source (le_refl w.now) rfl rfl rfl ?_ hsources.2.1 hsources.2.2
  intro other hmem
  rcases List.mem_or_eq_of_mem_set hmem with hmem | heq
  · exact hsources.1 other hmem
  · rw [heq]
    exact hsources.1 read (List.mem_of_getElem? hread)

theorem Inv.finishes (h : Inv w) {i : Nat} {read : Read} (hread : w.reads[i]? = some read)
    (state : SidebarState) : Inv { w.finish i read state with steps := w.steps + 1 } := by
  have hsources := h.clock.sources
  have hfound := hsources.1 read (List.mem_of_getElem? hread)
  refine h.of_source (le_refl w.now) rfl rfl rfl ?_ ?_ ?_
  · intro other hmem
    rcases List.mem_or_eq_of_mem_set hmem with hmem | heq
    · exact hsources.1 other hmem
    · rw [heq]
      exact hfound
  · intro s key hs
    simp only [World.finish] at hs
    split at hs
    · rw [Option.some.injEq, Prod.mk.injEq] at hs
      rw [← hs.1]
      exact hfound
    · exact hsources.2.1 s key hs
  · intro request s hs
    simp only [World.finish] at hs
    cases hrequest : w.requests request with
    | idle => simp [hrequest] at hs
    | holding snapshot =>
        simp only [hrequest, Request.holding.injEq] at hs
        rw [← hs]
        exact hsources.2.2 request snapshot hrequest
    | waiting j budget =>
        simp only [hrequest] at hs
        split at hs
        · rw [Request.holding.injEq] at hs
          rw [← hs]
          exact hfound
        · cases hs

theorem Inv.remembers (h : Inv w) (sessionHash : String) (assignment : StickyAssignment) :
    Inv { w.remember sessionHash assignment with steps := w.steps + 1 } := by
  have hsources := h.clock.sources
  constructor
  · refine h.clock.extend ⟨le_rfl, Nat.lt_succ_self _, ?_⟩ hsources.1 hsources.2.1 hsources.2.2
    intro id pin landed hpin hlanded
    simp only [World.remember] at hpin
    by_cases hid : id < w.remembered.length
    · rw [List.getElem?_append_left hid] at hpin
      exact Or.inl ⟨pin, hpin, hlanded⟩
    · -- the new pin has not landed
      rw [List.getElem?_append_right (by omega)] at hpin
      rw [List.mem_singleton.mp (List.mem_of_getElem? hpin)] at hlanded
      cases hlanded
  · exact h.pins.remember sessionHash assignment

theorem Inv.lands (h : Inv w) {id : Nat} {pin : Remembered} (hpin : w.remembered[id]? = some pin) :
    Inv { w.land id pin with steps := w.steps + 1 } := by
  have hsources := h.clock.sources
  constructor
  · refine h.clock.extend ⟨le_rfl, Nat.lt_succ_self _, ?_⟩ hsources.1 hsources.2.1 hsources.2.2
    intro id' pin' landed hpin' hlanded
    simp only [World.land] at hpin'
    by_cases hid : id' = id
    · rw [hid, List.getElem?_set_self (List.getElem?_eq_some_iff.mp hpin).1, Option.some.injEq]
        at hpin'
      rw [← hpin', Option.some.injEq] at hlanded
      exact Or.inr hlanded.symm
    · rw [List.getElem?_set_ne (Ne.symm hid)] at hpin'
      exact Or.inl ⟨pin', hpin', hlanded⟩
  · exact h.pins.land hpin (w.now, w.steps)

theorem Inv.applies (h : Inv w) (snapshot : SidebarSnapshot) :
    Inv { w.apply snapshot with steps := w.steps + 1 } := by
  have hsources := h.clock.sources
  constructor
  · refine h.clock.extend ⟨le_rfl, Nat.lt_succ_self _, ?_⟩ hsources.1 hsources.2.1 hsources.2.2
    intro id pin' landed hpin' hlanded
    change (w.remembered.mapIdx (marked snapshot w.overlay))[id]? = some pin' at hpin'
    rw [List.getElem?_mapIdx, Option.map_eq_some_iff] at hpin'
    rcases hpin' with ⟨pin, hpin, heq⟩
    rw [← heq, (marked_sessionHash snapshot id pin).2.2] at hlanded
    exact Or.inl ⟨pin, hpin, hlanded⟩
  · exact h.pins.apply snapshot

/-- Every step keeps the invariant. -/
theorem Inv.step (h : Inv w) {e : Event} (hs : step w e = some w') : Inv w' := by
  rcases Option.map_eq_some_iff.mp hs with ⟨mid, hmid, heq⟩
  rw [← heq]
  have hsources := h.clock.sources
  cases e with
  | passes ms =>
      rw [← Option.some.inj hmid]
      exact h.of_source (Nat.le_add_right _ _) rfl rfl rfl hsources.1 hsources.2.1 hsources.2.2
  | fileReplaced state =>
      rw [← Option.some.inj hmid]
      exact h.of_source le_rfl rfl rfl rfl hsources.1 hsources.2.1 hsources.2.2
  | gets request key =>
      rw [← Option.some.inj hmid]
      exact h.gets request key
  | reads request key =>
      rw [← Option.some.inj hmid]
      exact h.waits request key false
  | refreshes key =>
      rw [← Option.some.inj hmid]
      exact h.refreshes key
  | takesContents i readable =>
      rcases Option.bind_eq_some_iff.mp hmid with ⟨read, hread, hrest⟩
      rw [← Option.some.inj hrest]
      exact h.takesContents hread _
  | finishes i =>
      rcases Option.bind_eq_some_iff.mp hmid with ⟨read, hread, hrest⟩
      rcases Option.bind_eq_some_iff.mp hrest with ⟨state, hstate, hrest⟩
      split at hrest
      · cases hrest
      · rw [← Option.some.inj hrest]
        exact h.finishes hread state
  | budgetEnds request =>
      simp only [World.handle] at hmid
      split at hmid
      · rw [← Option.some.inj hmid]
        exact h.holds request (stale_source h.clock)
      · cases hmid
  | remembers sessionHash assignment =>
      rw [← Option.some.inj hmid]
      exact h.remembers sessionHash assignment
  | lands id =>
      rcases Option.bind_eq_some_iff.mp hmid with ⟨pin, hpin, hrest⟩
      split at hrest
      · cases hrest
      · rw [← Option.some.inj hrest]
        exact h.lands hpin
  | applies request =>
      simp only [World.handle] at hmid
      split at hmid
      · rename_i snapshot _
        rw [← Option.some.inj hmid]
        exact h.applies snapshot
      · cases hmid

end

theorem start_inv (file : SidebarState) : Inv { file } := by
  constructor
  · constructor
    · intro read hmem
      cases hmem
    · intro s key hs
      cases hs
    · intro request s hs
      cases hs
    · intro id pin landed hpin
      cases hpin
  · constructor
    · intro key e hmem
      cases hmem
    · intro key e hmem
      cases hmem
    · exact List.Pairwise.nil
    · intro id pin hlatest
      cases hlatest.here

theorem Reachable.inv {file : SidebarState} {w : World} (h : Reachable file w) : Inv w := by
  induction h with
  | start => exact start_inv file
  | step e _ hs ih => exact ih.step hs

theorem Reachable.of_run {file : SidebarState} {w w' : World} (h : Reachable file w)
    {es : List Event} (hr : run w es = some w') : Reachable file w' := by
  induction es generalizing w with
  | nil =>
      rw [← Option.some.inj hr]
      exact h
  | cons e es ih =>
      rcases Option.bind_eq_some_iff.mp hr with ⟨next, hs, hrest⟩
      exact ih (h.step e hs) hrest

/-- In any run, a request is shown the last pin remembered for a session, or
what was read after that pin was written, exactly when no other request has
dropped the pin's entry, or the request's own snapshot makes up for it. -/
theorem shown_iff {file : SidebarState} {w : World} (h : Reachable file w) {id : Nat}
    {pin : Remembered} (hlatest : Latest w.remembered id pin) {request : Nat}
    {snapshot : SidebarSnapshot} (hheld : w.requests request = .holding snapshot) :
    Shown w pin snapshot ↔ Kept pin snapshot := by
  have hinv := h.inv
  have hsees := apply_pin snapshot w.overlay pin.sessionHash
  by_cases hdropped : pin.dropped = false
  · -- the entry is there: it is shown, or the snapshot is new enough
    refine ⟨fun _ => Or.inl hdropped, fun _ => ?_⟩
    rcases hinv.pins.present id pin hlatest hdropped with ⟨e, hmem, hid⟩
    rcases hinv.pins.entry _ e hmem with ⟨same, hsame, -, hassign, hlanded, -⟩
    rw [hid, hlatest.here, Option.some.injEq] at hsame
    rw [← hsame] at hassign hlanded
    rw [Js.Table.get_eq_some.mpr hmem] at hsees
    by_cases hout : outdated snapshot e = true
    · right
      cases hat : e.persistedAt with
      | none => simp [outdated, hat] at hout
      | some persistedAt =>
          have hlt : persistedAt < snapshot.readAt := by simpa [outdated, hat] using hout
          rcases Option.map_eq_some_iff.mp (hlanded.trans hat) with ⟨landed, hlands, hfirst⟩
          have hdated := hinv.clock.held request snapshot hheld
          have hbegun := hdated.ordered id pin landed hlatest.here hlands (hfirst ▸ hlt)
          refine ⟨⟨landed, hlands, hbegun⟩, ?_⟩
          rw [hsees, Option.filter_some, hout]
          rfl
    · left
      rw [hsees]
      simp [hout, hassign]
  · -- the entry is gone, and nothing hides the snapshot
    have hnone : w.overlay.get pin.sessionHash = none := by
      rw [Option.eq_none_iff_forall_not_mem]
      intro e hget
      have hmem := Js.Table.get_eq_some.mp hget
      rcases hinv.pins.entry _ e hmem with ⟨other, hother, hsession, -, -, hkept⟩
      have hnot : ¬ e.id < id := fun hlt =>
        hinv.pins.last _ e hmem id pin hlatest.here hlt rfl
      have hnot' : ¬ id < e.id := fun hlt => hlatest.last e.id other hother hlt hsession
      have hid : e.id = id := by omega
      rw [hid, hlatest.here, Option.some.injEq] at hother
      rw [← hother] at hkept
      exact hdropped hkept
    rw [hnone] at hsees
    have hsnapshot : (applyStickyPinOverlay snapshot w.overlay).1.pin pin.sessionHash =
        snapshot.state.pin pin.sessionHash := hsees
    unfold Shown Kept
    rw [hsnapshot]
    constructor
    · intro hshown
      rcases hshown with hpin | ⟨hafter, -⟩
      · exact Or.inr (Or.inr hpin)
      · exact Or.inr (Or.inl hafter)
    · intro hkept
      rcases hkept with hkept | hafter | hpin
      · exact absurd hkept hdropped
      · exact Or.inr ⟨hafter, rfl⟩
      · exact Or.inl hpin

/-! ## A request that waited on an older read -/

/-- The pin of a session called `session`. -/
def firstPin : StickyAssignment where
  accountId := "a"
  assignedAt := 1
  lastSeenAt := 1
  inputBytes := 9

/-- Request 1 starts to read before the pin is written and has its contents by
then; request 2 reads after it was written and drops the entry; then the first
read is over. -/
def slowRead : List Event :=
  [.passes 1, .remembers "session" firstPin, .gets 1 (some "before"), .takesContents 0 true,
    .passes 4, .lands 0, .passes 1, .gets 2 (some "after"), .takesContents 1 true, .finishes 1,
    .applies 2, .finishes 0]

/-- Request 1 holds a snapshot that started before step 5 and sees no pin. -/
def seesNothing (w : World) : Bool :=
  match w.requests 1 with
  | .holding snapshot =>
      snapshot.started = some 2 &&
        (applyStickyPinOverlay snapshot w.overlay).1.pin "session" = none
  | _ => false

/-- The pin after the run: written in step 5, its entry dropped. -/
def droppedPin : Remembered where
  sessionHash := "session"
  assignment := firstPin
  landed := some (5, 5)
  dropped := true

theorem slowRead_ends :
    (run {} slowRead).any (fun w =>
      w.remembered = [droppedPin] && seesNothing w) = true := by
  decide +kernel

theorem slowRead_world : ∃ w snapshot, Reachable {} w ∧ Latest w.remembered 0 droppedPin ∧
    w.requests 1 = .holding snapshot ∧ snapshot.started = some 2 ∧
    (applyStickyPinOverlay snapshot w.overlay).1.pin "session" = none := by
  have hends := slowRead_ends
  cases hrun : run {} slowRead with
  | none => simp [hrun] at hends
  | some w =>
      rw [hrun] at hends
      simp only [Option.any_some, Bool.and_eq_true, decide_eq_true_eq] at hends
      rcases hends with ⟨hremembered, hsees⟩
      have hlatest : Latest w.remembered 0 droppedPin := by
        rw [hremembered]
        constructor
        · rfl
        · intro later other hother hlt
          have hin := (List.getElem?_eq_some_iff.mp hother).1
          simp only [List.length_singleton] at hin
          omega
        · decide +kernel
      unfold seesNothing at hsees
      split at hsees
      · rename_i snapshot hheld
        simp only [Bool.and_eq_true, decide_eq_true_eq] at hsees
        exact ⟨w, snapshot, .of_run .start hrun, hlatest, hheld, hsees.1, hsees.2⟩
      · cases hsees

theorem shown_iff_slowRead : ∃ w snapshot, Reachable {} w ∧
    w.requests 1 = .holding snapshot ∧ (Shown w droppedPin snapshot ↔ Kept droppedPin snapshot) := by
  rcases slowRead_world with ⟨w, snapshot, hreach, hlatest, hheld, -, -⟩
  exact ⟨w, snapshot, hreach, hheld, shown_iff hreach hlatest hheld⟩

/-- A request that waited on an older read sees the session unpinned. -/
theorem shown_slowRead :
    ¬ ∀ (file : SidebarState) (w : World) (id : Nat) (pin : Remembered) (request : Nat)
        (snapshot : SidebarSnapshot),
      Reachable file w → Latest w.remembered id pin → w.requests request = .holding snapshot →
      Shown w pin snapshot := by
  intro h
  rcases slowRead_world with ⟨w, snapshot, hreach, hlatest, hheld, hstart, hnone⟩
  rcases h {} w 0 droppedPin 1 snapshot hreach hlatest hheld with
    hpin | ⟨⟨landed, hlanded, started, hstarted, hlt⟩, -⟩
  · rw [show droppedPin.sessionHash = "session" from rfl, hnone] at hpin
    cases hpin
  · -- the read started in step 2, the write was over in step 5
    rw [hstart] at hstarted
    cases hlanded
    cases hstarted
    omega

end Sidebar.Overlay
