import OpenaiAuth.Interleave.System

/-! # One program among others

A run of one program from its first call to its result. Between two of its calls the others
may do anything that a relation on worlds allows; the relation is what is assumed of them.
`Brings` says what such a run returns, with a rule for each way a program is put together.
-/

namespace Interleave

variable {S : Sig} {M : Machine S} {t : ℕ} {rely : M.World → M.World → Prop} {α β ε : Type}

variable (M t rely) in
/-- Program `t` comes from `w` to its result and leaves the last world. Before each of its
calls the others have moved by `rely`. -/
inductive Among : M.World → Prog S α → M.World → α → Prop
  | ret (w : M.World) (a : α) : Among w (.ret a) w a
  | call {w w₁ w₂ w' : M.World} {o : S.Call} {k : S.Ans o → Prog S α} {ch : M.Choice}
      {r : S.Ans o} {a : α} (hrely : rely w w₁) (hexec : M.exec t o ch w₁ = some (r, w₂))
      (hrest : Among w₂ (k r) w' a) : Among w (.call o k) w' a

namespace Among

theorem ret_iff {w w' : M.World} {a b : α} :
    Among M t rely w (.ret a) w' b ↔ w' = w ∧ b = a := by
  constructor
  · intro h
    cases h
    exact ⟨rfl, rfl⟩
  · rintro ⟨rfl, rfl⟩
    exact .ret _ _

/-- A sequence is run part after part. -/
theorem of_bind {p : Prog S α} {f : α → Prog S β} {w w' : M.World} {b : β}
    (h : Among M t rely w (p >>= f) w' b) :
    ∃ a w₁, Among M t rely w p w₁ a ∧ Among M t rely w₁ (f a) w' b := by
  induction p generalizing w with
  | ret a => exact ⟨a, w, .ret w a, h⟩
  | call o k ih =>
      rw [Prog.call_bind] at h
      cases h with
      | call hrely hexec hrest =>
          obtain ⟨a, w₁, hfirst, hthen⟩ := ih _ hrest
          exact ⟨a, w₁, .call hrely hexec hfirst, hthen⟩

/-- Nothing need happen in between. -/
theorem of_drive (hrefl : ∀ w, rely w w) (chs : List M.Choice) {p : Prog S α} {w w' : M.World}
    {a : α} (h : M.drive t chs p w = some (.ret a, w')) : Among M t rely w p w' a := by
  induction chs generalizing p w with
  | nil =>
      obtain ⟨rfl, rfl⟩ := Prod.mk.inj (Option.some.inj h)
      exact .ret _ _
  | cons ch chs ih =>
      cases p with
      | ret b => cases h
      | call o k =>
          obtain ⟨⟨r, w₁⟩, hexec, hrest⟩ := Option.bind_eq_some_iff.mp h
          exact .call (hrefl w) hexec (ih hrest)

/-- The others move before the first call only. -/
theorem of_drive_after (hrefl : ∀ w, rely w w) (w₁ : M.World) (ch : M.Choice)
    (chs : List M.Choice) {p : Prog S α} {w w' : M.World} {a : α} (hrely : rely w w₁)
    (h : M.drive t (ch :: chs) p w₁ = some (.ret a, w')) : Among M t rely w p w' a := by
  cases p with
  | ret b => cases h
  | call o k =>
      obtain ⟨⟨r, w₂⟩, hexec, hrest⟩ := Option.bind_eq_some_iff.mp h
      exact .call hrely hexec (of_drive hrefl chs hrest)

end Among

/-! ## What a run returns -/

variable (M t rely) in
/-- What `p` returns from `w` meets `Q`; nothing is said about what it throws. -/
def Brings (w : M.World) (p : Throwing ε S α) (Q : α → M.World → Prop) : Prop :=
  ∀ w' a, Among M t rely w p.run w' (.ok a) → Q a w'

namespace Brings

variable {w : M.World} {Q : α → M.World → Prop}

theorem pure {a : α} (h : Q a w) : Brings M t rely w (pure a : Throwing ε S α) Q := by
  intro w' b hrun
  obtain ⟨rfl, heq⟩ := Among.ret_iff.mp hrun
  cases heq
  exact h

theorem throw {e : ε} : Brings M t rely w (throw e : Throwing ε S α) Q := by
  intro w' b hrun
  obtain ⟨-, heq⟩ := Among.ret_iff.mp hrun
  cases heq

theorem mono {p : Throwing ε S α} {Q' : α → M.World → Prop} (h : Brings M t rely w p Q')
    (hQ : ∀ a w', Q' a w' → Q a w') : Brings M t rely w p Q :=
  fun w' a hrun => hQ a w' (h w' a hrun)

theorem bind {p : Throwing ε S β} {f : β → Throwing ε S α}
    (h : Brings M t rely w p fun b w₁ => Brings M t rely w₁ (f b) Q) :
    Brings M t rely w (p >>= f) Q := by
  intro w' a hrun
  obtain ⟨r, w₁, hfirst, hthen⟩ := Among.of_bind hrun
  cases r with
  | ok b => exact h w₁ b hfirst w' a hthen
  | error e =>
      obtain ⟨-, heq⟩ := Among.ret_iff.mp hthen
      cases heq

/-- The others have moved before the call, and it is answered by the world then. -/
theorem perform {o : S.Call} {ans : S.Ans o → Except ε α}
    (h : ∀ w₁ ch r w₂ a, rely w w₁ → M.exec t o ch w₁ = some (r, w₂) → ans r = .ok a → Q a w₂) :
    Brings M t rely w (Throwing.perform o ans) Q := by
  intro w' a hrun
  cases hrun with
  | call hrely hexec hrest =>
      obtain ⟨rfl, heq⟩ := Among.ret_iff.mp hrest
      exact h _ _ _ _ a hrely hexec heq.symm

theorem attempt {p : Throwing ε S β} {Q : Except ε β → M.World → Prop}
    (hok : Brings M t rely w p fun b w' => Q (.ok b) w') (herror : ∀ e w', Q (.error e) w') :
    Brings M t rely w (Throwing.attempt p) Q := by
  intro w' r hrun
  obtain ⟨r', w₁, hfirst, hthen⟩ := Among.of_bind hrun
  obtain ⟨rfl, heq⟩ := Among.ret_iff.mp hthen
  cases heq
  cases r with
  | ok b => exact hok w' b hfirst
  | error e => exact herror e w'

end Brings

end Interleave
