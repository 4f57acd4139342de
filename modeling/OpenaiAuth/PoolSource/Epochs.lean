import OpenaiAuth.PoolSource.Source

/-! # A row's credential belongs to its epoch

OpenCode compares epochs before it lays a rotated credential over a row; Pi compares stamps
alone, and takes the bearer from the row it is handed. `Lapse` are the results that then put
one epoch's credential on another's row, and, for both hosts, a result that arrives after a
newer one.

Main result: `pool_source_tokens`, over every run without a lapse.
-/

namespace PoolSource

open Js

/-! ## Rows of one login -/

def SameLogin (a b : PoolRow) : Prop := a.id = b.id ∧ a.credentialEpoch = b.credentialEpoch

/-- Both have an OAuth credential, and `a` was refreshed before `b`. -/
def Older (a b : PoolRow) : Prop :=
  ∃ x y, a.oauth = some x ∧ b.oauth = some y ∧ x.stamp < y.stamp

theorem older_irrefl (a : PoolRow) : ¬ Older a a := by
  rintro ⟨x, y, hx, hy, hlt⟩
  rw [hx] at hy
  cases hy
  exact lt_irrefl _ hlt

theorem Older.trans {a b c : PoolRow} (hab : Older a b) (hbc : Older b c) : Older a c := by
  obtain ⟨x, y, hx, hy, hxy⟩ := hab
  obtain ⟨y', z, hy', hz, hyz⟩ := hbc
  rw [hy] at hy'
  cases hy'
  exact ⟨x, z, hx, hz, hxy.trans hyz⟩

theorem Older.congr {a a' b b' : PoolRow} (h : Older a b) (ha : a'.credential = a.credential)
    (hb : b'.credential = b.credential) : Older a' b' := by
  obtain ⟨x, y, hx, hy, hlt⟩ := h
  refine ⟨x, y, ?_, ?_, hlt⟩
  · rw [← hx, PoolRow.oauth, PoolRow.oauth, ha]
  · rw [← hy, PoolRow.oauth, PoolRow.oauth, hb]

/-- The row under `id` held this credential under this epoch. -/
def HeldCredential (held : List PoolRow) (id : String) (epoch : Option ℕ) (c : Credential) : Prop :=
  ∃ row ∈ held, row.id = id ∧ row.credentialEpoch = epoch ∧ row.credential = some c

theorem HeldCredential.mono {held held' : List PoolRow} {id : String} {epoch : Option ℕ}
    {c : Credential} (h : HeldCredential held id epoch c) (hsub : held ⊆ held') :
    HeldCredential held' id epoch c := by
  obtain ⟨row, hmem, hrow⟩ := h
  exact ⟨row, hsub hmem, hrow⟩

/-- A row has a credential that was held under its own epoch. -/
def Own (held : List PoolRow) (row : PoolRow) : Prop :=
  ∀ c, row.credential = some c → HeldCredential held row.id row.credentialEpoch c

/-! ## Overlaying -/

/-- A rotated credential that would go over a row of another epoch. -/
def Crosses (rotated : Table Rotated) (row : PoolRow) : Prop :=
  ∃ own, rotated.get row.id = some own ∧ own.credentialEpoch ≠ row.credentialEpoch ∧
    Older row (rotatedRow row.id own.credential own.credentialEpoch)

/-- A rotated credential of the row's own epoch that is not older than `seen`. -/
def Covers (rotated : Table Rotated) (row seen : PoolRow) : Prop :=
  ∃ own, rotated.get row.id = some own ∧ own.credentialEpoch = row.credentialEpoch ∧
    ∃ x y, (rotatedRow row.id own.credential own.credentialEpoch).oauth = some x ∧
      seen.oauth = some y ∧ y.stamp ≤ x.stamp

theorem Covers.not_older {rotated : Table Rotated} {row seen : PoolRow} {own : Rotated}
    (h : Covers rotated row seen) (hown : rotated.get row.id = some own) :
    own.credentialEpoch = row.credentialEpoch ∧
      ¬ Older (rotatedRow row.id own.credential own.credentialEpoch) seen := by
  obtain ⟨own', hown', hepoch, x, y, hx, hy, hle⟩ := h
  rw [hown] at hown'
  cases hown'
  refine ⟨hepoch, ?_⟩
  rintro ⟨x', y', hx', hy', hlt⟩
  rw [hx] at hx'
  rw [hy] at hy'
  cases hx'
  cases hy'
  omega

/-- What covers a row's newer credential is itself newer than the row. -/
theorem Covers.older {rotated : Table Rotated} {row seen : PoolRow} (h : Covers rotated row seen)
    (holder : Older row seen) : ∃ own, rotated.get row.id = some own ∧
      own.credentialEpoch = row.credentialEpoch ∧
        Older row (rotatedRow row.id own.credential own.credentialEpoch) := by
  obtain ⟨own, hown, hepoch, x, y, hx, hy, hle⟩ := h
  obtain ⟨z, y', hz, hy', hlt⟩ := holder
  rw [hy] at hy'
  cases hy'
  exact ⟨own, hown, hepoch, z, x, hz, hx, lt_of_lt_of_le hlt hle⟩

/-- A row comes out as it is, or with the newer credential that was rotated under its own epoch. -/
theorem overlay_cases {host : Host} {rotated : Table Rotated} {row : PoolRow}
    (h : host = .pi → ¬ Crosses rotated row) :
    ((overlay host rotated row).1 = row ∧
      ∀ own, rotated.get row.id = some own → own.credentialEpoch = row.credentialEpoch →
        ¬ Older row (rotatedRow row.id own.credential own.credentialEpoch)) ∨
    ∃ own, rotated.get row.id = some own ∧ own.credentialEpoch = row.credentialEpoch ∧
      (overlay host rotated row).1 = { row with credential := some own.credential } ∧
      Older row (rotatedRow row.id own.credential own.credentialEpoch) := by
  unfold overlay
  split
  · rename_i hnone
    refine .inl ⟨rfl, ?_⟩
    intro own hown
    rw [hnone] at hown
    cases hown
  · rename_i own hown
    split
    · rename_i hreplaced
      refine .inl ⟨rfl, ?_⟩
      intro own' hown' hepoch
      rw [hown] at hown'
      cases hown'
      exact absurd hepoch hreplaced.2
    · rename_i hsame
      have hrotated : (rotatedRow row.id own.credential own.credentialEpoch).oauth =
          own.credential.oauth? := rfl
      split
      · rename_i mine file hmine hfile
        split
        · rename_i hle
          refine .inl ⟨rfl, ?_⟩
          intro own' hown' _
          rw [hown] at hown'
          cases hown'
          rintro ⟨x, y, hx, hy, hlt⟩
          rw [hfile] at hx
          rw [hrotated, hmine] at hy
          cases hx
          cases hy
          omega
        · rename_i hlt
          have holder : Older row (rotatedRow row.id own.credential own.credentialEpoch) :=
            ⟨file, mine, hfile, hrotated.trans hmine, by omega⟩
          refine .inr ⟨own, hown, ?_, rfl, holder⟩
          -- Pi gets here without a look at the epochs
          by_contra hepoch
          cases host with
          | openCode => exact hsame ⟨rfl, hepoch⟩
          | pi => exact h rfl ⟨own, hown, hepoch, holder⟩
      · rename_i hother
        refine .inl ⟨rfl, ?_⟩
        intro own' hown' _
        rw [hown] at hown'
        cases hown'
        rintro ⟨x, y, hx, hy, -⟩
        exact hother y x (hrotated.symm.trans hy) hx

/-- It goes by the entry of its own row alone. -/
theorem overlay_congr {host : Host} {rotated rotated' : Table Rotated} {row : PoolRow}
    (h : rotated'.get row.id = rotated.get row.id) :
    (overlay host rotated' row).1 = (overlay host rotated row).1 := by
  unfold overlay
  rw [h]
  split
  · rfl
  · split
    · rfl
    · split
      · split <;> rfl
      · rfl

/-- Only the entry of its own row is taken off. -/
theorem overlay_rotated (host : Host) (rotated : Table Rotated) (row : PoolRow) :
    (overlay host rotated row).2 = rotated ∨ (overlay host rotated row).2 = rotated.delete row.id := by
  unfold overlay
  split
  · exact .inl rfl
  · split
    · exact .inr rfl
    · split
      · split
        · exact .inr rfl
        · exact .inl rfl
      · exact .inl rfl

theorem get_withLocalState {host : Host} {rotated : Table Rotated} {rows : List PoolRow}
    {id : String} {own : Rotated} (h : (withLocalState host rotated rows).2.get id = some own) :
    rotated.get id = some own := by
  induction rows generalizing rotated with
  | nil => exact h
  | cons row rest ih =>
      have hfirst := ih h
      rcases overlay_rotated host rotated row with heq | heq
      · rwa [heq] at hfirst
      · rw [heq, Table.get_delete] at hfirst
        split_ifs at hfirst
        exact hfirst

/-- Each row is one of the rows read, overlaid. -/
theorem mem_withLocalState {host : Host} {rotated : Table Rotated} {rows : List PoolRow}
    (hnodup : (rows.map (·.id)).Nodup) {row' : PoolRow}
    (h : row' ∈ (withLocalState host rotated rows).1) :
    ∃ row ∈ rows, row' = (overlay host rotated row).1 := by
  induction rows generalizing rotated with
  | nil => cases h
  | cons row rest ih =>
      rw [List.map_cons, List.nodup_cons] at hnodup
      rcases List.mem_cons.mp h with rfl | h
      · exact ⟨row, List.mem_cons_self, rfl⟩
      · obtain ⟨other, hmem, rfl⟩ := ih hnodup.2 h
        refine ⟨other, List.mem_cons_of_mem _ hmem, overlay_congr ?_⟩
        -- the entry of another row is still there
        have hne : other.id ≠ row.id := by
          intro heq
          exact hnodup.1 (heq ▸ List.mem_map_of_mem hmem)
        rcases overlay_rotated host rotated row with heq | heq
        · rw [heq]
        · rw [heq, Table.get_delete, if_neg hne]

/-! ## Lapses -/

/-- A row that was read is older than one seen before, and no rotated credential covers it. -/
def Late (s : State) (rows : List PoolRow) : Prop :=
  ∃ row ∈ rows, ∃ w ∈ s.seen, SameLogin w row ∧ Older row w ∧ ¬ Covers s.source.rotated row w

/-- The snapshot is older than what was seen and not taken over. -/
def Behind (s : State) (rows : List PoolRow) : Prop :=
  ∃ row ∈ rows, ∃ shown ∈ s.source.rows, SameLogin row shown ∧ Older shown row

/-- The ends of reads and refreshes that leave a row with a credential of another epoch, or with
an older one than was seen. -/
def Lapse (host : Host) (s : State) : Event → Prop
  | .endRead n =>
      ∃ readAt sidebar load, s.reads[n]? = some ⟨readAt, sidebar, .taken load⟩ ∧
        if sidebar = false ∧ s.source.readAt ≤ readAt then
          Late s (load.getD []) ∨
            (host = .pi ∧ ∃ row ∈ load.getD [], Crosses s.source.rotated row)
        else Behind s (load.getD [])
  | .endRefresh n setAside =>
      ∃ id c epoch identity, s.refreshes[n]? = some ⟨id, .answered (.rotated c epoch identity)⟩ ∧
        if host = .pi ∧ setAside = true then Behind s [rotatedRow id c epoch]
        else
          (∃ shown ∈ s.source.rows, SameLogin (rotatedRow id c epoch) shown ∧
            ∃ w ∈ s.seen, SameLogin w shown ∧ Older (rotatedRow id c epoch) w) ∨
          (host = .pi ∧ ∃ shown ∈ s.source.rows, shown.id = id ∧ shown.credentialEpoch ≠ epoch)
  | _ => False

/-! ## The invariant -/

/-- What the process has in memory is of its own epoch, and no older than what it has seen. -/
structure Memory (held : List PoolRow) (source : Source) (shown seen : List PoolRow) : Prop where
  rotated : ∀ id own, source.rotated.get id = some own →
    HeldCredential held id own.credentialEpoch own.credential
  rows : source.rows ⊆ shown
  own : ∀ row ∈ shown, Own held row
  fresh : ∀ row ∈ source.rows, ∀ w ∈ seen, SameLogin w row → ¬ Older row w

structure Inv (s : State) : Prop where
  memory : Memory s.held s.source s.shown s.seen
  files : s.files ⊆ s.held
  nodup : (s.files.map (·.id)).Nodup
  taken : ∀ read ∈ s.reads, ∀ load, read.phase = .taken load →
    load.getD [] ⊆ s.held ∧ ((load.getD []).map (·.id)).Nodup
  answered : ∀ refresh ∈ s.refreshes, ∀ c epoch identity,
    refresh.phase = .answered (.rotated c epoch identity) →
      HeldCredential s.held refresh.id epoch c

theorem Own.mono {held held' : List PoolRow} {row : PoolRow} (h : Own held row)
    (hsub : held ⊆ held') : Own held' row :=
  fun c hc => (h c hc).mono hsub

theorem Memory.mono {held held' : List PoolRow} {source : Source} {shown seen : List PoolRow}
    (h : Memory held source shown seen) (hsub : held ⊆ held') : Memory held' source shown seen :=
  ⟨fun id own hown => (h.rotated id own hown).mono hsub, h.rows,
    fun row hrow => (h.own row hrow).mono hsub, h.fresh⟩

/-- Only the files and what is under way change. -/
theorem Inv.outside {s s' : State} (h : Inv s) (hsource : s'.source = s.source)
    (hshown : s'.shown = s.shown) (hseen : s'.seen = s.seen) (hheld : s.held ⊆ s'.held)
    (hfiles : s'.files ⊆ s'.held) (hnodup : (s'.files.map (·.id)).Nodup)
    (htaken : ∀ read ∈ s'.reads, read ∈ s.reads ∨ ∀ load, read.phase = .taken load →
      load.getD [] ⊆ s'.held ∧ ((load.getD []).map (·.id)).Nodup)
    (hanswered : ∀ refresh ∈ s'.refreshes, refresh ∈ s.refreshes ∨ ∀ c epoch identity,
      refresh.phase = .answered (.rotated c epoch identity) →
        HeldCredential s'.held refresh.id epoch c) : Inv s' where
  memory := by
    rw [hsource, hshown, hseen]
    exact h.memory.mono hheld
  files := hfiles
  nodup := hnodup
  taken := by
    intro read hread load hphase
    rcases htaken read hread with hold | hnew
    · obtain ⟨hsub, hids⟩ := h.taken read hold load hphase
      exact ⟨fun row hrow => hheld (hsub hrow), hids⟩
    · exact hnew load hphase
  answered := by
    intro refresh hrefresh c epoch identity hphase
    rcases hanswered refresh hrefresh with hold | hnew
    · exact (h.answered refresh hold c epoch identity hphase).mono hheld
    · exact hnew c epoch identity hphase

/-- The snapshot is replaced by rows that were read. -/
theorem Memory.adopt {host : Host} {held : List PoolRow} {s : State} {rows : List PoolRow}
    {active : Bool} {readAt : ℤ} (h : Memory held s.source s.shown s.seen) (hrows : rows ⊆ held)
    (hnodup : (rows.map (·.id)).Nodup) (hlate : ¬ Late s rows)
    (hcross : host = .pi → ∀ row ∈ rows, ¬ Crosses s.source.rotated row) :
    Memory held
      { active := active, rows := (withLocalState host s.source.rotated rows).1, readAt := readAt
        rotated := (withLocalState host s.source.rotated rows).2 }
      ((withLocalState host s.source.rotated rows).1 ++ s.shown) (rows ++ s.seen) where
  rotated id own hown := h.rotated id own (get_withLocalState hown)
  rows := fun _ => List.mem_append_left _
  own := by
    intro row' hrow'
    rcases List.mem_append.mp hrow' with hrow' | hold
    · obtain ⟨row, hmem, rfl⟩ := mem_withLocalState hnodup hrow'
      rcases overlay_cases (fun hpi => hcross hpi row hmem) with ⟨heq, -⟩ | ⟨own, hown, hepoch, heq, -⟩
      · rw [heq]
        exact fun c hc => ⟨row, hrows hmem, rfl, rfl, hc⟩
      · rw [heq]
        intro c hc
        cases hc
        show HeldCredential held row.id row.credentialEpoch own.credential
        rw [← hepoch]
        exact h.rotated row.id own hown
    · exact h.own row' hold
  fresh := by
    intro row' hrow' w hw hsame holder
    obtain ⟨row, hmem, rfl⟩ := mem_withLocalState hnodup hrow'
    have hread : w ∈ rows → w.id = row.id → w = row :=
      fun hw hid => List.inj_on_of_nodup_map hnodup hw hmem hid
    have hcovers : w ∈ s.seen → SameLogin w row → Older row w → Covers s.source.rotated row w := by
      intro hw hsame holder
      by_contra hnot
      exact hlate ⟨row, hmem, w, hw, hsame, holder, hnot⟩
    rcases overlay_cases (fun hpi => hcross hpi row hmem) with ⟨heq, hnone⟩ | ⟨own, hown, hepoch, heq, hnewer⟩
    · rw [heq] at hsame holder
      rcases List.mem_append.mp hw with hw | hw
      · rw [hread hw hsame.1] at holder
        exact older_irrefl row holder
      · obtain ⟨own, hown, hepoch, hnewer⟩ := (hcovers hw hsame holder).older holder
        exact hnone own hown hepoch hnewer
    · rw [heq] at hsame holder
      have hown' : Older (rotatedRow row.id own.credential own.credentialEpoch) w := holder.congr rfl rfl
      rcases List.mem_append.mp hw with hw | hw
      · rw [hread hw hsame.1] at hown'
        exact older_irrefl row (hnewer.trans hown')
      · exact ((hcovers hw hsame (hnewer.trans hown')).not_older hown).2 hown'

/-- The snapshot stays, and so much of the rotated credentials. -/
theorem Memory.keep {held : List PoolRow} {s : State} {source : Source} {rows : List PoolRow}
    (h : Memory held s.source s.shown s.seen) (hsource : source.rows = s.source.rows)
    (hrotated : ∀ id own, source.rotated.get id = some own → s.source.rotated.get id = some own)
    (hbehind : ¬ Behind s rows) :
    Memory held source (source.rows ++ s.shown) (rows ++ s.seen) where
  rotated id own hown := h.rotated id own (hrotated id own hown)
  rows := fun _ => List.mem_append_left _
  own := by
    intro row hrow
    rw [hsource] at hrow
    rcases List.mem_append.mp hrow with hrow | hrow
    · exact h.own row (h.rows hrow)
    · exact h.own row hrow
  fresh := by
    intro row hrow w hw hsame holder
    rw [hsource] at hrow
    rcases List.mem_append.mp hw with hw | hw
    · exact hbehind ⟨w, hw, row, hrow, hsame, holder⟩
    · exact h.fresh row hrow w hw hsame holder

/-- A row of the snapshot after a refresh has ended: as it was, or with the rotated credential. -/
theorem mem_replaceRow {source : Source} {id : String} {update : PoolRow → PoolRow} {row : PoolRow}
    (h : row ∈ (source.replaceRow id update).rows) :
    ∃ old ∈ source.rows, (old.id ≠ id ∧ row = old) ∨ (old.id = id ∧ row = update old) := by
  obtain ⟨old, hmem, heq⟩ := List.mem_map.mp h
  refine ⟨old, hmem, ?_⟩
  split_ifs at heq with hid
  · exact .inr ⟨hid, heq.symm⟩
  · exact .inl ⟨hid, heq.symm⟩

/-- A rotated credential arrives. -/
theorem Memory.rotate {host : Host} {held : List PoolRow} {s : State} {id : String}
    {c : Credential} {epoch : Option ℕ} {identity : Option String}
    (h : Memory held s.source s.shown s.seen) (hheld : HeldCredential held id epoch c)
    (hlate : ¬ ∃ shown ∈ s.source.rows, SameLogin (rotatedRow id c epoch) shown ∧
      ∃ w ∈ s.seen, SameLogin w shown ∧ Older (rotatedRow id c epoch) w)
    (hcross : host = .pi → ¬ ∃ shown ∈ s.source.rows, shown.id = id ∧ shown.credentialEpoch ≠ epoch)
    {source : Source}
    (hsource : source = { s.source with rotated := s.source.rotated.set id ⟨c, epoch⟩ }.replaceRow id
      fun row => if host = Host.openCode ∧ row.credentialEpoch ≠ epoch then row
        else { row with credential := some c, identity := row.identity.or identity }) :
    Memory held source (source.rows ++ s.shown) (rotatedRow id c epoch :: s.seen) := by
  -- a row of another id or epoch is as it was
  have hrows : ∀ row ∈ source.rows, (row ∈ s.source.rows ∧ (row.id ≠ id ∨ row.credentialEpoch ≠ epoch)) ∨
      ∃ old ∈ s.source.rows, SameLogin (rotatedRow id c epoch) old ∧ row.id = id ∧
        row.credentialEpoch = epoch ∧ row.credential = some c := by
    intro row hrow
    rw [hsource] at hrow
    obtain ⟨old, hmem, ⟨hid, rfl⟩ | ⟨hid, rfl⟩⟩ := mem_replaceRow hrow
    · exact .inl ⟨hmem, .inl hid⟩
    · split
      · rename_i hother
        exact .inl ⟨hmem, .inr hother.2⟩
      · rename_i hsame
        have hepoch : old.credentialEpoch = epoch := by
          by_contra hepoch
          cases host with
          | openCode => exact hsame ⟨rfl, hepoch⟩
          | pi => exact hcross rfl ⟨old, hmem, hid, hepoch⟩
        exact .inr ⟨old, hmem, ⟨hid.symm, hepoch.symm⟩, hid, hepoch, rfl⟩
  refine ⟨?_, fun _ => List.mem_append_left _, ?_, ?_⟩
  · intro id' own hown
    rw [hsource] at hown
    change (s.source.rotated.set id ⟨c, epoch⟩).get id' = some own at hown
    rw [Table.get_set] at hown
    split_ifs at hown with hid
    · cases hown
      rw [hid]
      exact hheld
    · exact h.rotated id' own hown
  · intro row hrow
    rcases List.mem_append.mp hrow with hrow | hrow
    · rcases hrows row hrow with ⟨hold, -⟩ | ⟨-, -, -, hid, hepoch, hc⟩
      · exact h.own row (h.rows hold)
      · intro c' hc'
        rw [hc] at hc'
        cases hc'
        rw [hid, hepoch]
        exact hheld
    · exact h.own row hrow
  · intro row hrow w hw hsame holder
    rcases hrows row hrow with ⟨hold, hother⟩ | ⟨old, hold, hlogin, hid, hepoch, hc⟩
    · rcases List.mem_cons.mp hw with rfl | hw
      · exact hother.elim (fun hne => hne hsame.1.symm) fun hne => hne hsame.2.symm
      · exact h.fresh row hold w hw hsame holder
    · have hnewer : Older (rotatedRow id c epoch) w := holder.congr hc.symm rfl
      rcases List.mem_cons.mp hw with rfl | hw
      · exact older_irrefl _ hnewer
      · refine hlate ⟨old, hold, hlogin, w, hw, ?_, hnewer⟩
        exact ⟨hsame.1.trans (hid.trans hlogin.1), hsame.2.trans (hepoch.trans hlogin.2)⟩

/-- Rows are turned off. -/
theorem Memory.disable {held : List PoolRow} {s : State} {id : String}
    (h : Memory held s.source s.shown s.seen) {source : Source}
    (hsource : source = s.source.replaceRow id fun row =>
      { row with enabled := false, candidate := false }) :
    Memory held source (source.rows ++ s.shown) s.seen := by
  have hrows : ∀ row ∈ source.rows, ∃ old ∈ s.source.rows, row.id = old.id ∧
      row.credentialEpoch = old.credentialEpoch ∧ row.credential = old.credential := by
    intro row hrow
    rw [hsource] at hrow
    obtain ⟨old, hmem, ⟨-, rfl⟩ | ⟨-, rfl⟩⟩ := mem_replaceRow hrow
    · exact ⟨_, hmem, rfl, rfl, rfl⟩
    · exact ⟨_, hmem, rfl, rfl, rfl⟩
  refine ⟨?_, fun _ => List.mem_append_left _, ?_, ?_⟩
  · rw [hsource]
    exact h.rotated
  · intro row hrow
    rcases List.mem_append.mp hrow with hrow | hrow
    · obtain ⟨old, hold, hid, hepoch, hc⟩ := hrows row hrow
      rw [Own, hid, hepoch, hc]
      exact h.own old (h.rows hold)
    · exact h.own row hrow
  · intro row hrow w hw hsame holder
    obtain ⟨old, hold, hid, hepoch, hc⟩ := hrows row hrow
    exact h.fresh old hold w hw ⟨hsame.1.trans hid, hsame.2.trans hepoch⟩ (holder.congr hc.symm rfl)

theorem Memory.same {held : List PoolRow} {s : State} (h : Memory held s.source s.shown s.seen) :
    Memory held s.source (s.source.rows ++ s.shown) s.seen := by
  refine ⟨h.rotated, fun _ => List.mem_append_left _, ?_, h.fresh⟩
  intro row hrow
  exact h.own row ((List.mem_append.mp hrow).elim (fun hrow => h.rows hrow) id)

/-! ## Steps -/

theorem mem_setRead {s : State} {n : ℕ} {read other : Read} {phase : ReadPhase}
    (h : other ∈ (s.setRead n read phase).reads) :
    other ∈ s.reads ∨ other = { read with phase := phase } :=
  List.mem_or_eq_of_mem_set h

theorem mem_setRefresh {s : State} {n : ℕ} {refresh other : Refresh} {phase : RefreshPhase}
    (h : other ∈ (s.setRefresh n refresh phase).refreshes) :
    other ∈ s.refreshes ∨ other = { refresh with phase := phase } :=
  List.mem_or_eq_of_mem_set h

/-- A write of the files; each refresh is as it was, or has its answer from these rows. -/
theorem Inv.writeFiles {s s' : State} (h : Inv s) (rows : List PoolRow)
    (hnodup : (rows.map (·.id)).Nodup) (hsource : s'.source = s.source) (hshown : s'.shown = s.shown)
    (hseen : s'.seen = s.seen) (hfiles : s'.files = rows) (hheld : s'.held = rows ++ s.held)
    (hreads : s'.reads = s.reads)
    (hanswered : ∀ refresh ∈ s'.refreshes, refresh ∈ s.refreshes ∨ ∀ c epoch identity,
      refresh.phase = .answered (.rotated c epoch identity) →
        HeldCredential rows refresh.id epoch c) : Inv s' := by
  have hsub : rows ⊆ s'.held := by
    rw [hheld]
    exact fun _ => List.mem_append_left _
  refine h.outside hsource hshown hseen ?_ ?_ ?_ ?_ ?_
  · rw [hheld]
    exact fun _ => List.mem_append_right _
  · rw [hfiles]
    exact hsub
  · rw [hfiles]
    exact hnodup
  · intro read hread
    rw [hreads] at hread
    exact .inl hread
  · intro refresh hrefresh
    exact (hanswered refresh hrefresh).imp id fun hnew c epoch identity hphase =>
      (hnew c epoch identity hphase).mono hsub

/-- Only reads or refreshes change, and not what they have taken or answered. -/
theorem Inv.pending {s s' : State} (h : Inv s) (hsource : s'.source = s.source)
    (hshown : s'.shown = s.shown) (hseen : s'.seen = s.seen) (hheld : s'.held = s.held)
    (hfiles : s'.files = s.files)
    (hreads : ∀ read ∈ s'.reads, read ∈ s.reads ∨ ∀ load, read.phase = .taken load →
      load.getD [] ⊆ s.held ∧ ((load.getD []).map (·.id)).Nodup)
    (hrefreshes : ∀ refresh ∈ s'.refreshes, refresh ∈ s.refreshes ∨ ∀ c epoch identity,
      refresh.phase ≠ .answered (.rotated c epoch identity)) : Inv s' := by
  refine h.outside hsource hshown hseen ?_ ?_ ?_ ?_ ?_
  · rw [hheld]
    exact fun _ => id
  · rw [hheld, hfiles]
    exact h.files
  · rw [hfiles]
    exact h.nodup
  · rw [hheld]
    exact hreads
  · intro refresh hrefresh
    exact (hrefreshes refresh hrefresh).imp id fun hnot c epoch identity hphase =>
      absurd hphase (hnot c epoch identity)

/-- The end of a read or of a refresh. -/
theorem Inv.see {s : State} (s₁ : State) (h : Inv s) (hheld : s₁.held = s.held) (hfiles : s₁.files = s.files)
    (hshown : s₁.shown = s.shown) (hseen : s₁.seen = s.seen)
    (hreads : ∀ read ∈ s₁.reads, read ∈ s.reads ∨ read.phase = .ended)
    (hrefreshes : ∀ refresh ∈ s₁.refreshes, refresh ∈ s.refreshes ∨ refresh.phase = .ended)
    {source : Source} {rows : List PoolRow}
    (hmemory : Memory s.held source (source.rows ++ s.shown) (rows ++ s.seen)) :
    Inv (s₁.see source rows) where
  memory := by
    show Memory s₁.held source (source.rows ++ s₁.shown) (rows ++ s₁.seen)
    rw [hheld, hshown, hseen]
    exact hmemory
  files := by
    show s₁.files ⊆ s₁.held
    rw [hheld, hfiles]
    exact h.files
  nodup := by
    show (s₁.files.map _).Nodup
    rw [hfiles]
    exact h.nodup
  taken := by
    intro read hread load hphase
    show load.getD [] ⊆ s₁.held ∧ _
    rw [hheld]
    rcases hreads read hread with hold | hended
    · exact h.taken read hold load hphase
    · rw [hended] at hphase
      cases hphase
  answered := by
    intro refresh hrefresh c epoch identity hphase
    show HeldCredential s₁.held _ _ _
    rw [hheld]
    rcases hrefreshes refresh hrefresh with hold | hended
    · exact h.answered refresh hold c epoch identity hphase
    · rw [hended] at hphase
      cases hphase

theorem endRead_inv {host : Host} {s : State} {n : ℕ} {readAt : ℤ} {sidebar : Bool}
    {load : Option (List PoolRow)} (h : Inv s) (hread : s.reads[n]? = some ⟨readAt, sidebar, .taken load⟩)
    (hlapse : ¬ Lapse host s (.endRead n)) :
    Inv ((s.setRead n ⟨readAt, sidebar, .taken load⟩ .ended).see
      (if sidebar then s.source.sidebarView load else s.source.adopt host readAt load)
      (load.getD [])) := by
  obtain ⟨hrows, hnodup⟩ := h.taken _ (List.mem_of_getElem? hread) load rfl
  refine h.see (s.setRead n _ _) rfl rfl rfl rfl (fun read hmem => ?_) (fun _ => .inl) ?_
  · rcases mem_setRead hmem with hold | rfl
    · exact .inl hold
    · exact .inr rfl
  have hkeep : ¬ (sidebar = false ∧ s.source.readAt ≤ readAt) → ¬ Behind s (load.getD []) := by
    intro hkept hbehind
    exact hlapse ⟨readAt, sidebar, load, hread, by rwa [if_neg hkept]⟩
  cases sidebar with
  | true =>
      exact h.memory.keep rfl (fun id own hown => get_withLocalState hown) (hkeep fun hnot => by cases hnot.1)
  | false =>
      rw [if_neg Bool.false_ne_true, Source.adopt]
      split
      · rename_i hle
        have hlapse' : ¬ (Late s (load.getD []) ∨
            (host = .pi ∧ ∃ row ∈ load.getD [], Crosses s.source.rotated row)) := by
          intro hlate
          exact hlapse ⟨readAt, false, load, hread, by rwa [if_pos ⟨rfl, hle⟩]⟩
        rw [not_or] at hlapse'
        exact h.memory.adopt hrows hnodup hlapse'.1
          fun hpi row hrow hcross => hlapse'.2 ⟨hpi, row, hrow, hcross⟩
      · rename_i hlt
        exact h.memory.keep rfl (fun _ _ hown => hown) (hkeep fun hnot => hlt hnot.2)

theorem endRefresh_inv {host : Host} {s : State} {n : ℕ} {id : String} {outcome : Outcome}
    {setAside : Bool} (h : Inv s) (hrefresh : s.refreshes[n]? = some ⟨id, .answered outcome⟩)
    (hlapse : ¬ Lapse host s (.endRefresh n setAside)) :
    Inv ((s.setRefresh n ⟨id, .answered outcome⟩ .ended).see
      (s.source.refreshed host setAside id outcome) (outcome.sees id)) := by
  refine h.see (s.setRefresh n _ _) rfl rfl rfl rfl (fun _ => .inl) (fun refresh hmem => ?_) ?_
  · rcases mem_setRefresh hmem with hold | rfl
    · exact .inl hold
    · exact .inr rfl
  cases outcome with
  | failed => exact h.memory.same
  | identityContradicted =>
      rw [Source.refreshed]
      split
      · exact h.memory.same
      · exact h.memory.disable rfl
  | rotated c epoch identity =>
      have hheld := h.answered _ (List.mem_of_getElem? hrefresh) c epoch identity rfl
      rw [Source.refreshed]
      split
      · rename_i haside
        refine h.memory.keep rfl (fun _ _ hown => hown) fun hbehind => hlapse ?_
        exact ⟨id, c, epoch, identity, hrefresh, by rwa [if_pos haside]⟩
      · rename_i haside
        have hlapse' : ¬ ((∃ shown ∈ s.source.rows, SameLogin (rotatedRow id c epoch) shown ∧
            ∃ w ∈ s.seen, SameLogin w shown ∧ Older (rotatedRow id c epoch) w) ∨
            (host = .pi ∧ ∃ shown ∈ s.source.rows, shown.id = id ∧ shown.credentialEpoch ≠ epoch)) := by
          intro hnot
          exact hlapse ⟨id, c, epoch, identity, hrefresh, by rwa [if_neg haside]⟩
        rw [not_or] at hlapse'
        exact h.memory.rotate hheld hlapse'.1 (fun hpi hcross => hlapse'.2 ⟨hpi, hcross⟩) rfl

theorem step_inv {host : Host} {s s' : State} {e : Event} (h : Inv s) (hlapse : ¬ Lapse host s e)
    (hstep : s.step host e = some s') : Inv s' := by
  cases e with
  | write rows =>
      simp only [State.step] at hstep
      split_ifs at hstep with hnodup
      cases hstep
      exact h.writeFiles _ hnodup rfl rfl rfl rfl rfl rfl fun _ => .inl
  | startRead readAt sidebar =>
      simp only [State.step] at hstep
      split_ifs at hstep
      cases hstep
      refine h.pending rfl rfl rfl rfl rfl (fun read hmem => ?_) fun _ => .inl
      rcases List.mem_append.mp hmem with hold | hnew
      · exact .inl hold
      · obtain rfl := List.mem_singleton.mp hnew
        exact .inr nofun
  | take n ready =>
      simp only [State.step] at hstep
      split at hstep
      · rename_i read hread
        split at hstep
        case isFalse => cases hstep
        cases hstep
        refine h.pending rfl rfl rfl rfl rfl (fun other hmem => ?_) fun _ => .inl
        rcases mem_setRead hmem with hold | rfl
        · exact .inl hold
        · refine .inr fun load hphase => ?_
          cases hphase
          cases ready with
          | true => exact ⟨h.files, h.nodup⟩
          | false => exact ⟨List.nil_subset _, List.nodup_nil⟩
      · cases hstep
  | failRead n =>
      simp only [State.step] at hstep
      split at hstep
      · split_ifs at hstep
        cases hstep
        refine h.pending rfl rfl rfl rfl rfl (fun other hmem => ?_) fun _ => .inl
        rcases mem_setRead hmem with hold | rfl
        · exact .inl hold
        · exact .inr nofun
      · cases hstep
  | endRead n =>
      simp only [State.step] at hstep
      split at hstep
      · rename_i readAt sidebar load hread
        cases hstep
        exact endRead_inv h hread hlapse
      · cases hstep
  | startRefresh id =>
      simp only [State.step] at hstep
      split at hstep
      · cases hstep
        exact h
      · cases hstep
        refine h.pending rfl rfl rfl rfl rfl (fun _ => .inl) fun refresh hmem => ?_
        rcases List.mem_append.mp hmem with hold | hnew
        · exact .inl hold
        · obtain rfl := List.mem_singleton.mp hnew
          exact .inr nofun
  | rotate n c identity =>
      simp only [State.step] at hstep
      split at hstep
      · rename_i id hrefresh
        split at hstep
        · rename_i row hrow
          cases hstep
          refine h.writeFiles (s.files.map fun r => if r.id = id then
            { r with credential := some c, identity := r.identity.or identity } else r)
            ?_ rfl rfl rfl rfl rfl rfl fun other hmem => ?_
          · rw [List.map_map]
            refine (List.map_congr_left fun r _ => ?_) ▸ h.nodup
            show r.id = (if r.id = id then _ else r : PoolRow).id
            split <;> rfl
          · rcases mem_setRefresh hmem with hold | rfl
            · exact .inl hold
            · refine .inr fun c' epoch identity' hphase => ?_
              cases hphase
              have hid : row.id = id := by simpa using List.find?_some hrow
              refine ⟨_, List.mem_map_of_mem (List.mem_of_find?_eq_some hrow), ?_⟩
              rw [if_pos hid]
              exact ⟨hid, rfl, rfl⟩
        · cases hstep
      · cases hstep
  | contradict n c =>
      simp only [State.step] at hstep
      split at hstep
      · rename_i id hrefresh
        cases hstep
        refine h.writeFiles (s.files.map fun r => if r.id = id then
          { r with credential := some c, enabled := false } else r)
          ?_ rfl rfl rfl rfl rfl rfl fun other hmem => ?_
        · rw [List.map_map]
          refine (List.map_congr_left fun r _ => ?_) ▸ h.nodup
          show r.id = (if r.id = id then _ else r : PoolRow).id
          split <;> rfl
        · rcases mem_setRefresh hmem with hold | rfl
          · exact .inl hold
          · exact .inr nofun
      · cases hstep
  | failRefresh n =>
      simp only [State.step] at hstep
      split at hstep
      · cases hstep
        refine h.pending rfl rfl rfl rfl rfl (fun _ => .inl) fun refresh hmem => ?_
        rcases mem_setRefresh hmem with hold | rfl
        · exact .inl hold
        · exact .inr nofun
      · cases hstep
  | endRefresh n setAside =>
      simp only [State.step] at hstep
      split at hstep
      · rename_i id outcome hrefresh
        cases hstep
        exact endRefresh_inv h hrefresh hlapse
      · cases hstep

/-! ## Runs -/

/-- The states of a source without a lapse. -/
inductive Reached (host : Host) : State → Prop
  | init : Reached host {}
  | step {s s' : State} {e : Event} (h : Reached host s) (hlapse : ¬ Lapse host s e)
      (hstep : s.step host e = some s') : Reached host s'

theorem inv_init : Inv {} where
  memory :=
    { rotated := fun _ _ h => by cases h
      rows := List.nil_subset _
      own := fun _ h => absurd h List.not_mem_nil
      fresh := fun _ h => absurd h List.not_mem_nil }
  files := List.nil_subset _
  nodup := List.nodup_nil
  taken := fun _ h => absurd h List.not_mem_nil
  answered := fun _ h => absurd h List.not_mem_nil

theorem Reached.inv {host : Host} {s : State} (h : Reached host s) : Inv s := by
  induction h with
  | init => exact inv_init
  | step _ hlapse hstep ih => exact step_inv ih hlapse hstep

theorem bearer_eq {row : PoolRow} {now : ℤ} {token : String} (h : bearer row now = some token) :
    ∃ oauth, row.credential = some (.oauth oauth) ∧ oauth.access.getD "" = token := by
  unfold bearer at h
  split at h
  · cases h
  · rename_i oauth hoauth
    split_ifs at h
    cases h
    obtain ⟨c, hc, hfields⟩ := Option.bind_eq_some_iff.mp hoauth
    cases c with
    | oauth fields =>
        cases hfields
        exact ⟨oauth, hc, rfl⟩
    | other => cases hfields

/-- A bearer of a row that has its own credential is of the row's epoch. -/
theorem bearer_held {held : List PoolRow} {row : PoolRow} {now : ℤ} {token : String}
    (hown : Own held row) (h : bearer row now = some token) :
    ∃ r ∈ held, r.id = row.id ∧ r.credentialEpoch = row.credentialEpoch ∧
      ∃ oauth, r.oauth = some oauth ∧ oauth.access.getD "" = token := by
  obtain ⟨oauth, hc, htoken⟩ := bearer_eq h
  obtain ⟨r, hmem, hid, hepoch, hr⟩ := hown _ hc
  refine ⟨r, hmem, hid, hepoch, oauth, ?_, htoken⟩
  rw [PoolRow.oauth, hr]
  rfl

/-- Over every run without a lapse: the token for a row that the snapshot shows is that of a
credential which the row held under the epoch shown (to Pi the row is handed as some snapshot
showed it under that epoch); and no credential of the snapshot is older than one that was read
or rotated under its epoch. -/
theorem pool_source_tokens {host : Host} {s : State} (h : Reached host s) :
    (∀ vault row now token shown, s.source.rows.find? (·.id = row.id) = some shown →
      (host = .pi → row ∈ s.shown ∧ row.credentialEpoch = shown.credentialEpoch) →
      s.source.usableToken host vault row now = some token →
        ∃ held ∈ s.held, held.id = shown.id ∧ held.credentialEpoch = shown.credentialEpoch ∧
          ∃ oauth, held.oauth = some oauth ∧ oauth.access.getD "" = token) ∧
    (∀ shown ∈ s.source.rows, ∀ w ∈ s.seen, SameLogin w shown → ¬ Older shown w) := by
  have hmemory := h.inv.memory
  refine ⟨?_, hmemory.fresh⟩
  intro vault row now token shown hshown hpi htoken
  have hmem := List.mem_of_find?_eq_some hshown
  have hid : shown.id = row.id := by simpa using List.find?_some hshown
  cases host with
  | openCode =>
      simp only [Source.usableToken, hshown] at htoken
      split at htoken
      · cases htoken
      · exact bearer_held (hmemory.own shown (hmemory.rows hmem)) htoken
  | pi =>
      obtain ⟨hrow, hepoch⟩ := hpi rfl
      simp only [Source.usableToken] at htoken
      split at htoken
      · cases htoken
      · rw [hid, ← hepoch]
        exact bearer_held (hmemory.own row hrow) htoken

def oauthRow (epoch : ℕ) (access : String) (lastRefreshedAt : Option ℤ) : PoolRow :=
  { id := "main", isOAuth := true, enabled := true, candidate := true, identity := none
    credentialEpoch := some epoch
    credential := some (.oauth
      { access := some access, refresh := "refresh", expires := some 100
        lastRefreshedAt := lastRefreshedAt }) }

/-- A row is read, and its token is its own. -/
theorem pool_source_tokens_read : ∃ s : State, s.source.rows = [oauthRow 1 "first" (some 5)] ∧
    ∃ held ∈ s.held, held.credentialEpoch = some 1 ∧
      ∃ oauth, held.oauth = some oauth ∧ oauth.access.getD "" = "first" := by
  have hinit : Reached .openCode {} := .init
  have hwrite := hinit.step
    (e := .write [oauthRow 1 "first" (some 5)]) id rfl
  have hstart := hwrite.step (e := .startRead 1 false) id rfl
  have htake := hstart.step (e := .take 0 true) id rfl
  have hread := htake.step (e := .endRead 0) ?_ rfl
  · obtain ⟨held, hmem, -, hheld⟩ := (pool_source_tokens hread).1 (fun _ => false)
      (oauthRow 1 "first" (some 5)) 0 "first" (oauthRow 1 "first" (some 5)) rfl nofun (by decide)
    exact ⟨_, rfl, held, hmem, hheld⟩
  · rintro ⟨readAt, sidebar, load, hread, hlapse⟩
    cases hread
    rw [if_pos ⟨rfl, by decide⟩] at hlapse
    rcases hlapse with ⟨-, -, w, hw, -⟩ | ⟨hpi, -⟩
    · cases hw
    · cases hpi

/-- Pi: the row is signed in anew while its refresh is under way. The refresh ends after the new
login was read, and its credential goes over the new epoch's row. -/
theorem pi_crosses : ∃ s : State, State.run {} .pi [.write [oauthRow 1 "first" (some 5)],
      .startRead 1 false, .take 0 true, .endRead 0, .startRefresh "main",
      .rotate 0 (.oauth ⟨some "rotated", "next", some 100, some 10⟩) none,
      .write [oauthRow 2 "second" none], .startRead 2 false, .take 1 true, .endRead 1,
      .endRefresh 0 false] = some s ∧
    ∃ shown, s.source.rows = [shown] ∧ shown.credentialEpoch = some 2 ∧
      s.source.usableToken .pi (fun _ => false) shown 0 = some "rotated" ∧
      ∀ held ∈ s.held, held.credentialEpoch = some 2 →
        held.oauth.bind (·.access) ≠ some "rotated" := by
  refine ⟨_, rfl, _, rfl, rfl, by decide, ?_⟩
  decide

end PoolSource
