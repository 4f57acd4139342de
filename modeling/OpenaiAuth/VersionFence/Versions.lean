import OpenaiAuth.Js.Lexing
import OpenaiAuth.Js.Rounding
import OpenaiAuth.Semver.Precedence

/-! # Comparing versions

`parseSemver` is its regular expression, group by group: digits are read as far as they
go, and a pre-release as far as the next plus. Below `2 ^ 53` the numbers are exact, and
the sign is the precedence of the versions read; from there on they are rounded, and from
`2 ^ 1024` on the difference may be no number.

Main results: `partsOf_trim`, which texts are versions, and `compareVersions_eq`.
-/

namespace VersionFence

open Js

/-! ## Model -/

/-- `[0-9A-Za-z-]` -/
def isIdentifierUnit (c : Nat) : Bool :=
  Parse.isDigit c || (65 ≤ c && c ≤ 90) || (97 ≤ c && c ≤ 122) || c = 45

/-- `[0-9A-Za-z-]+` -/
def isIdentifier (text : Units) : Bool := !text.isEmpty && text.all isIdentifierUnit

/-- `[0-9A-Za-z.-]+` -/
def isBuild (text : Units) : Bool :=
  !text.isEmpty && text.all fun c => isIdentifierUnit c || c = 46

/-- `\d+` -/
def isNumeric (text : Units) : Bool := !text.isEmpty && text.all Parse.isDigit

/-- The groups of the regular expression, the pre-release split at its dots. -/
structure Parts where
  major : Units
  minor : Units
  patch : Units
  preRelease : List Units
  build : Option Units
deriving DecidableEq, Repr

def digitsAt (text : Units) : Option (Units × Units) :=
  let digits := text.takeWhile Parse.isDigit
  if digits = [] then none else some (digits, text.dropWhile Parse.isDigit)

def dotAt : Units → Option Units
  | 46 :: rest => some rest
  | _ => none

/-- Nothing in the group is a plus, and nothing else can follow it. -/
def preReleaseAt (text : Units) : Option (List Units × Units) :=
  if text.head? = some 45 then
    let group := (text.drop 1).takeWhile (· ≠ 43)
    if (group.splitOn 46).all isIdentifier then
      some (group.splitOn 46, (text.drop 1).dropWhile (· ≠ 43))
    else none
  else some ([], text)

def buildAt : Units → Option (Option Units)
  | [] => some none
  | 43 :: rest => if isBuild rest then some (some rest) else none
  | _ => none

def partsOf (text : Units) : Option Parts := do
  let (major, rest) ← digitsAt (if text.head? = some 118 then text.drop 1 else text)
  let rest ← dotAt rest
  let (minor, rest) ← digitsAt rest
  let rest ← dotAt rest
  let (patch, rest) ← digitsAt rest
  let (preRelease, rest) ← preReleaseAt rest
  let build ← buildAt rest
  return { major, minor, patch, preRelease, build }

/-- `Number(digits)` -/
def number (digits : Units) : Number := Number.toDouble (Parse.decimal digits)

structure Semver where
  core : List Number
  pre : List Units
deriving DecidableEq, Repr

def parseSemver (value : Units) : Option Semver :=
  (partsOf (Units.trim value)).map fun parts =>
    { core := [number parts.major, number parts.minor, number parts.patch]
      pre := parts.preRelease }

def signed : Ordering → Number
  | .lt => .finite (-1)
  | .eq => .finite 0
  | .gt => .finite 1

/-- `Math.sign` -/
def mathSign (n : Number) : Number := if n = .nan then .nan else signed n.sign

/-- The sign of the first difference; `NaN` is one. -/
def compareCore : List Number → List Number → Option Number
  | x :: xs, y :: ys =>
      let diff := x.sub y
      if diff ≠ .finite 0 then some (mathSign diff) else compareCore xs ys
  | _, _ => none

def compareIdentifiers : List Units → List Units → Number
  | [], [] => .finite 0
  | [], _ :: _ => .finite (-1)
  | _ :: _, [] => .finite 1
  | x :: xs, y :: ys =>
      if isNumeric x && isNumeric y then
        let diff := (number x).sub (number y)
        if diff ≠ .finite 0 then mathSign diff else compareIdentifiers xs ys
      else if isNumeric x ≠ isNumeric y then if isNumeric x then .finite (-1) else .finite 1
      else if x ≠ y then if x < y then .finite (-1) else .finite 1
      else compareIdentifiers xs ys

def comparePre (left right : List Units) : Number :=
  if left = [] ∨ right = [] then mathSign (.finite ((right.length : ℚ) - left.length))
  else compareIdentifiers left right

def compareVersions (a b : Units) : Option Number := do
  let left ← parseSemver a
  let right ← parseSemver b
  return (compareCore left.core right.core).getD (comparePre left.pre right.pre)

/-! ## Versions and their texts -/

namespace Parts

def preReleaseText (parts : Parts) : Units :=
  if parts.preRelease = [] then [] else 45 :: [46].intercalate parts.preRelease

def text (parts : Parts) : Units :=
  parts.major ++ 46 :: (parts.minor ++ 46 :: (parts.patch ++
    (parts.preReleaseText ++ parts.build.elim [] (43 :: ·))))

/-- What the regular expression allows: the numbers may begin with zeros, and build
metadata may have dots anywhere. -/
structure WellFormed (parts : Parts) : Prop where
  major : isNumeric parts.major = true
  minor : isNumeric parts.minor = true
  patch : isNumeric parts.patch = true
  preRelease : ∀ identifier ∈ parts.preRelease, isIdentifier identifier = true
  build : ∀ build, parts.build = some build → isBuild build = true

/-- The numbers are below `2 ^ 53`. -/
structure Exact (parts : Parts) : Prop where
  major : Parse.decimal parts.major < 2 ^ 53
  minor : Parse.decimal parts.minor < 2 ^ 53
  patch : Parse.decimal parts.patch < 2 ^ 53
  preRelease : ∀ identifier ∈ parts.preRelease, isNumeric identifier = true →
    Parse.decimal identifier < 2 ^ 53

end Parts

def identifier (text : Units) : Semver.Identifier ℕ :=
  if isNumeric text then .numeric (Parse.decimal text) else .text text

/-- The version that the parts spell. -/
def Parts.version (parts : Parts) : Semver.Version ℕ where
  major := Parse.decimal parts.major
  minor := Parse.decimal parts.minor
  patch := Parse.decimal parts.patch
  preRelease := parts.preRelease.map identifier
  build := parts.build

/-- The text is a version, perhaps with a `v` before it, and white space around it. -/
def Writes (value : Units) (parts : Parts) : Prop :=
  parts.WellFormed ∧ ∃ before v after : Units, (∀ c ∈ before, Units.isSpace c = true) ∧
    (v = [] ∨ v = [118]) ∧ (∀ c ∈ after, Units.isSpace c = true) ∧
    value = before ++ (v ++ parts.text) ++ after

/-! ## Which texts are versions -/

theorem isNumeric_iff {text : Units} :
    isNumeric text = true ↔ text ≠ [] ∧ ∀ c ∈ text, Parse.isDigit c = true := by
  simp [isNumeric]

theorem isIdentifier_iff {text : Units} :
    isIdentifier text = true ↔ text ≠ [] ∧ ∀ c ∈ text, isIdentifierUnit c = true := by
  simp [isIdentifier]

theorem isBuild_iff {text : Units} : isBuild text = true ↔
    text ≠ [] ∧ ∀ c ∈ text, isIdentifierUnit c = true ∨ c = 46 := by
  simp [isBuild]

theorem isIdentifierUnit_cases {c : Nat} (h : isIdentifierUnit c = true) :
    Parse.isDigit c = true ∨ 65 ≤ c ∧ c ≤ 90 ∨ 97 ≤ c ∧ c ≤ 122 ∨ c = 45 := by
  simpa [isIdentifierUnit, or_assoc] using h

theorem dropWhile_of_takeWhile {test : Nat → Bool} {taken rest : Units}
    (h : (taken ++ rest).takeWhile test = taken) : (taken ++ rest).dropWhile test = rest := by
  have hboth : (taken ++ rest).takeWhile test ++ (taken ++ rest).dropWhile test = taken ++ rest :=
    List.takeWhile_append_dropWhile
  rw [h] at hboth
  exact List.append_cancel_left hboth

theorem digitsAt_iff {text digits rest : Units} : digitsAt text = some (digits, rest) ↔
    isNumeric digits = true ∧ Parse.NoDigit rest ∧ text = digits ++ rest := by
  rw [isNumeric_iff]
  constructor
  · intro h
    simp only [digitsAt] at h
    split at h
    · cases h
    · rename_i hne
      cases h
      refine ⟨⟨hne, fun c hc => List.mem_takeWhile_imp hc⟩, ?_,
        List.takeWhile_append_dropWhile.symm⟩
      intro c hc
      exact head?_dropWhile text c hc
  · rintro ⟨⟨hne, hdigits⟩, hrest, rfl⟩
    have htake := Parse.takeWhile_digits hdigits hrest
    simp only [digitsAt, htake, if_neg hne, dropWhile_of_takeWhile htake]

theorem dotAt_iff {text rest : Units} : dotAt text = some rest ↔ text = 46 :: rest := by
  constructor
  · intro h
    unfold dotAt at h
    split at h
    · cases h
      rfl
    · cases h
  · rintro rfl
    rfl

theorem buildAt_iff {text : Units} {build : Option Units} : buildAt text = some build ↔
    (∀ units, build = some units → isBuild units = true) ∧ text = build.elim [] (43 :: ·) := by
  constructor
  · intro h
    unfold buildAt at h
    split at h
    · cases h
      exact ⟨nofun, rfl⟩
    · rename_i rest
      split at h
      · rename_i hbuild
        cases h
        refine ⟨?_, rfl⟩
        rintro units ⟨⟩
        exact hbuild
      · cases h
    · cases h
  · rintro ⟨hbuild, rfl⟩
    cases build with
    | none => rfl
    | some units => exact if_pos (hbuild units rfl)

/-- What may follow a pre-release. -/
def Ends (rest : Units) : Prop := ∀ c, rest.head? = some c → c = 43

theorem isIdentifier_clean {text : Units} (h : isIdentifier text = true) {c : Nat} (hc : c ∈ text) :
    c ≠ 43 ∧ c ≠ 46 := by
  rcases isIdentifierUnit_cases ((isIdentifier_iff.mp h).2 c hc) with hdigit | hletter
  · have hbounds := Number.isDigit_bounds hdigit
    omega
  · omega

theorem mem_intercalate {identifiers : List Units} {c : Nat}
    (h : c ∈ [46].intercalate identifiers) : c = 46 ∨ ∃ identifier ∈ identifiers, c ∈ identifier := by
  induction identifiers with
  | nil => cases h
  | cons first rest ih =>
      cases rest with
      | nil =>
          rw [List.intercalate_singleton] at h
          exact .inr ⟨first, List.mem_cons_self, h⟩
      | cons second rest =>
          rw [List.intercalate_cons_cons, List.mem_append, List.mem_append] at h
          rcases h with (h | h) | h
          · exact .inr ⟨first, List.mem_cons_self, h⟩
          · exact .inl (List.mem_singleton.mp h)
          · rcases ih h with hdot | ⟨identifier, hmem, hc⟩
            · exact .inl hdot
            · exact .inr ⟨identifier, List.mem_cons_of_mem first hmem, hc⟩

theorem preReleaseAt_group {identifiers : List Units} (hne : identifiers ≠ [])
    (h : ∀ identifier ∈ identifiers, isIdentifier identifier = true) {rest : Units}
    (hrest : Ends rest) : preReleaseAt (45 :: ([46].intercalate identifiers ++ rest)) =
      some (identifiers, rest) := by
  have hplus : ∀ c ∈ [46].intercalate identifiers, decide (c ≠ 43) = true := by
    intro c hc
    rcases mem_intercalate hc with rfl | ⟨identifier, hmem, hc⟩
    · rfl
    · exact decide_eq_true (isIdentifier_clean (h identifier hmem) hc).1
  have htake : ([46].intercalate identifiers ++ rest).takeWhile (fun c => decide (c ≠ 43)) =
      [46].intercalate identifiers := by
    rw [List.takeWhile_append_of_pos hplus]
    cases rest with
    | nil => simp
    | cons c rest =>
        rw [hrest c rfl]
        simp
  have hsplit : ([46].intercalate identifiers).splitOn 46 = identifiers := by
    apply List.splitOn_intercalate 46 _ hne
    intro identifier hmem hdot
    exact (isIdentifier_clean (h identifier hmem) hdot).2 rfl
  simp only [preReleaseAt, List.head?_cons, if_true, List.drop_one, List.tail_cons, htake, hsplit,
    dropWhile_of_takeWhile htake]
  exact if_pos (List.all_eq_true.mpr h)

theorem preReleaseAt_cases {text rest : Units} {identifiers : List Units}
    (h : preReleaseAt text = some (identifiers, rest)) :
    (identifiers = [] ∧ rest = text) ∨
      (identifiers ≠ [] ∧ (∀ identifier ∈ identifiers, isIdentifier identifier = true) ∧
        text = 45 :: ([46].intercalate identifiers ++ rest)) := by
  simp only [preReleaseAt] at h
  split at h
  · rename_i hdash
    split at h
    · rename_i hall
      cases h
      refine .inr ⟨List.splitOn_ne_nil _ _, List.all_eq_true.mp hall, ?_⟩
      -- the group and what follows it are the text after the dash
      rw [List.intercalate_splitOn, List.takeWhile_append_dropWhile]
      cases text with
      | nil => cases hdash
      | cons c text =>
          cases hdash
          rfl
    · cases h
  · cases h
    exact .inl ⟨rfl, rfl⟩

namespace Parts

variable {parts : Parts}

theorem noDigit_dot (rest : Units) : Parse.NoDigit (46 :: rest) := by
  intro c hc
  cases hc
  rfl

theorem preReleaseText_cases (parts : Parts) : parts.preReleaseText = [] ∨
    parts.preReleaseText = 45 :: [46].intercalate parts.preRelease := by
  rw [preReleaseText]
  split
  · exact .inl rfl
  · exact .inr rfl

theorem ends_build (build : Option Units) : Ends (build.elim [] (43 :: ·)) := by
  intro c hc
  cases build with
  | none => cases hc
  | some units =>
      cases hc
      rfl

theorem noDigit_rest (parts : Parts) :
    Parse.NoDigit (parts.preReleaseText ++ parts.build.elim [] (43 :: ·)) := by
  intro c hc
  rcases parts.preReleaseText_cases with htext | htext
  · rw [htext, List.nil_append] at hc
    rw [ends_build parts.build c hc]
    rfl
  · rw [htext] at hc
    cases hc
    rfl

/-- The first digit is no `v`. -/
theorem head_text (h : parts.WellFormed) : parts.text.head? ≠ some 118 := by
  intro hhead
  obtain ⟨hne, hdigits⟩ := isNumeric_iff.mp h.major
  rw [text, List.head?_append_of_ne_nil _ hne] at hhead
  have hdigit := hdigits 118 (List.mem_of_mem_head? hhead)
  cases hdigit

theorem preReleaseAt_text (h : parts.WellFormed) :
    preReleaseAt (parts.preReleaseText ++ parts.build.elim [] (43 :: ·)) =
      some (parts.preRelease, parts.build.elim [] (43 :: ·)) := by
  by_cases hnil : parts.preRelease = []
  · rw [preReleaseText, if_pos hnil, List.nil_append, hnil, preReleaseAt, if_neg]
    intro hdash
    have hplus := ends_build parts.build 45 hdash
    cases hplus
  · rw [preReleaseText, if_neg hnil, List.cons_append]
    exact preReleaseAt_group hnil h.preRelease (ends_build parts.build)

/-- The groups are read one after another. -/
theorem partsOf_text (h : parts.WellFormed) {v : Units} (hv : v = [] ∨ v = [118]) :
    partsOf (v ++ parts.text) = some parts := by
  have hstart : (if (v ++ parts.text).head? = some 118 then (v ++ parts.text).drop 1
      else v ++ parts.text) = parts.text := by
    rcases hv with rfl | rfl
    · exact if_neg (head_text h)
    · rfl
  have hmajor := fun rest => digitsAt_iff.mpr ⟨h.major, noDigit_dot rest, rfl⟩
  have hminor := fun rest => digitsAt_iff.mpr ⟨h.minor, noDigit_dot rest, rfl⟩
  have hpatch := digitsAt_iff.mpr ⟨h.patch, parts.noDigit_rest, rfl⟩
  have hbuild := buildAt_iff.mpr ⟨h.build, rfl⟩
  rw [partsOf, hstart, text, hmajor]
  simp only [Option.bind_eq_bind, Option.bind_some, dotAt]
  rw [hminor]
  simp only [Option.bind_some]
  rw [hpatch]
  simp only [Option.bind_some]
  rw [preReleaseAt_text h]
  simp only [Option.bind_some]
  rw [hbuild]
  rfl

theorem of_partsOf {text : Units} (h : partsOf text = some parts) :
    parts.WellFormed ∧ ∃ v : Units, (v = [] ∨ v = [118]) ∧ text = v ++ parts.text := by
  obtain ⟨v, hv, hstart⟩ : ∃ v : Units, (v = [] ∨ v = [118]) ∧
      text = v ++ if text.head? = some 118 then text.drop 1 else text := by
    by_cases hhead : text.head? = some 118
    · refine ⟨[118], .inr rfl, ?_⟩
      rw [if_pos hhead]
      cases text with
      | nil => cases hhead
      | cons c text =>
          cases hhead
          rfl
    · exact ⟨[], .inl rfl, (if_neg hhead).symm⟩
  rw [partsOf] at h
  simp only [Option.bind_eq_bind, Option.bind_eq_some_iff] at h
  obtain ⟨⟨major, afterMajor⟩, hmajor, afterDot, hdot, ⟨minor, afterMinor⟩, hminor, afterDot', hdot',
    ⟨patch, afterPatch⟩, hpatch, ⟨preRelease, afterPre⟩, hpre, build, hbuild, hparts⟩ := h
  obtain ⟨hmajor, -, hfirst⟩ := digitsAt_iff.mp hmajor
  obtain ⟨hminor, -, hsecond⟩ := digitsAt_iff.mp hminor
  obtain ⟨hpatch, -, hthird⟩ := digitsAt_iff.mp hpatch
  obtain ⟨hbuild, hafter⟩ := buildAt_iff.mp hbuild
  have hdot : afterMajor = 46 :: afterDot := dotAt_iff.mp hdot
  have hdot' : afterMinor = 46 :: afterDot' := dotAt_iff.mp hdot'
  cases hparts
  have hrest : (∀ identifier ∈ preRelease, isIdentifier identifier = true) ∧
      afterPatch = preReleaseText ⟨major, minor, patch, preRelease, build⟩ ++
        build.elim [] (43 :: ·) := by
    rw [preReleaseText, ← hafter]
    rcases preReleaseAt_cases hpre with ⟨hnil, hsame⟩ | ⟨hne, hall, hgroup⟩
    · rw [if_pos hnil, hnil, hsame]
      exact ⟨nofun, rfl⟩
    · rw [if_neg hne]
      exact ⟨hall, hgroup⟩
  refine ⟨⟨hmajor, hminor, hpatch, hrest.1, hbuild⟩, v, hv, ?_⟩
  rw [hstart, hfirst, hdot, hsecond, hdot', hthird, hrest.2]
  rfl

theorem unit_text (h : parts.WellFormed) {c : Nat} (hc : c ∈ parts.text) :
    isIdentifierUnit c = true ∨ c = 46 ∨ c = 43 := by
  have hdigits : ∀ {digits : Units}, isNumeric digits = true → c ∈ digits →
      isIdentifierUnit c = true := by
    intro digits hnumeric hmem
    have hdigit := (isNumeric_iff.mp hnumeric).2 c hmem
    rw [isIdentifierUnit, hdigit]
    rfl
  simp only [text, List.mem_append, List.mem_cons] at hc
  rcases hc with hc | hc | hc | hc | hc | hc | hc
  · exact .inl (hdigits h.major hc)
  · exact .inr (.inl hc)
  · exact .inl (hdigits h.minor hc)
  · exact .inr (.inl hc)
  · exact .inl (hdigits h.patch hc)
  · rcases parts.preReleaseText_cases with htext | htext
    · rw [htext] at hc
      cases hc
    · rw [htext, List.mem_cons] at hc
      rcases hc with rfl | hc
      · exact .inl rfl
      · rcases mem_intercalate hc with hdot | ⟨identifier, hmem, hc⟩
        · exact .inr (.inl hdot)
        · exact .inl ((isIdentifier_iff.mp (h.preRelease identifier hmem)).2 c hc)
  · cases hbuild : parts.build with
    | none =>
        rw [hbuild] at hc
        cases hc
    | some units =>
        rw [hbuild] at hc
        rcases List.mem_cons.mp hc with hplus | hc
        · exact .inr (.inr hplus)
        · rcases (isBuild_iff.mp (h.build units hbuild)).2 c hc with hunit | hdot
          · exact .inl hunit
          · exact .inr (.inl hdot)

/-- No white space stands in a version. -/
theorem not_isSpace_text (h : parts.WellFormed) {v : Units} (hv : v = [] ∨ v = [118]) {c : Nat}
    (hc : c ∈ v ++ parts.text) : Units.isSpace c = false := by
  rcases List.mem_append.mp hc with hc | hc
  · rcases hv with rfl | rfl
    · cases hc
    · rw [List.mem_singleton.mp hc]
      rfl
  · rcases unit_text h hc with hunit | rfl | rfl
    · rcases isIdentifierUnit_cases hunit with hdigit | hletter
      · exact Number.not_isSpace_of_isDigit hdigit
      · simp only [Units.isSpace, Bool.or_eq_false_iff, Bool.and_eq_false_iff,
          decide_eq_false_iff_not]
        omega
    · rfl
    · rfl

end Parts

/-- What `trim` takes away is white space on both sides. -/
theorem trim_split (value : Units) : ∃ before after : Units, (∀ c ∈ before, Units.isSpace c = true) ∧
    (∀ c ∈ after, Units.isSpace c = true) ∧ value = before ++ Units.trim value ++ after := by
  refine ⟨value.takeWhile Units.isSpace,
    ((value.dropWhile Units.isSpace).reverse.takeWhile Units.isSpace).reverse, ?_, ?_, ?_⟩
  · intro c hc
    exact List.mem_takeWhile_imp hc
  · intro c hc
    exact List.mem_takeWhile_imp (List.mem_reverse.mp hc)
  · rw [Units.trim, stripEnds, List.append_assoc, ← List.reverse_append,
      List.takeWhile_append_dropWhile, List.reverse_reverse, List.takeWhile_append_dropWhile]

theorem partsOf_trim {value : Units} {parts : Parts} :
    partsOf (Units.trim value) = some parts ↔ Writes value parts := by
  constructor
  · intro h
    obtain ⟨hwell, v, hv, htrim⟩ := Parts.of_partsOf h
    obtain ⟨before, after, hbefore, hafter, hvalue⟩ := trim_split value
    rw [htrim] at hvalue
    exact ⟨hwell, before, v, after, hbefore, hv, hafter, hvalue⟩
  · rintro ⟨hwell, before, v, after, hbefore, hv, hafter, rfl⟩
    rw [Units.trim_surrounded hbefore hafter]
    · exact Parts.partsOf_text hwell hv
    · intro c hc
      exact Parts.not_isSpace_text hwell hv (List.mem_of_mem_head? hc)
    · intro c hc
      exact Parts.not_isSpace_text hwell hv (List.mem_of_getLast? hc)

theorem compareVersions_isSome (a b : Units) : (compareVersions a b).isSome ↔
    (∃ parts, Writes a parts) ∧ ∃ parts, Writes b parts := by
  have hparsed : ∀ value, (parseSemver value).isSome ↔ ∃ parts, Writes value parts := by
    intro value
    rw [parseSemver, Option.isSome_map, Option.isSome_iff_exists]
    simp only [partsOf_trim]
  rw [← hparsed a, ← hparsed b, compareVersions]
  cases parseSemver a with
  | none => simp
  | some left => cases parseSemver b <;> simp

end VersionFence
